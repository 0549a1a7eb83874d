/-
  Scanning the beginning of a source. Where a source is cut off behind a token, what follows the last tokens is gone: the look-ahead
  of a byte in digits, and whatever a number or a word could have gone on with. None of the tokens in front depends on it, since each
  of them is found in front of anything that closes a lexeme (`Scan.Cut.closed`), and the end of a text does. The same is true where a
  scan fails, with the gap in front of the fault (`Scan.Cut.of_scan`). So prefixes are scanned alike (`Scan.scan_cutOff`).
-/
import FlatScope.Proofs.Delimiting.Slice

namespace FlatScope

/-- A gap is one as well where the text ends behind it. -/
theorem IsTrivia.cutOff {rest gap : List Char} (h : IsTrivia rest gap) : IsTrivia [] gap :=
  h.of_mem_head? fun c hc => absurd hc (Option.not_mem_none c)

namespace Scan

variable {file : Option String} {rest cs tail body gap : List Char} {pos : Position} {previous : Option Nat} {ts us : List Token}

/-- What is cut in front of some text is cut into the same tokens in front of whatever closes a lexeme. -/
theorem Cut.closed (h : Cut file rest pos previous cs ts) (hclose : Lexeme.Closes tail) : Cut file tail pos previous cs ts := by
  induction h with
  | nil => exact .nil
  | token hgap hfirst hg h ih =>
    have hlaid := h.isLaid fun stop hs => (Option.some.inj hs).symm
    exact .token hgap (h.first_relaid hfirst hg hlaid hclose) hg ih

/-- The beginning of a text that is cut, with a gap behind it, is scanned as its tokens. -/
theorem Cut.scanFrom_cutOff (h : Cut file rest pos previous body ts) (hgap : IsTrivia [] gap) (hf : ∀ t ∈ ts, t.fault? = none) :
    scanFrom file pos previous (body ++ gap) = ⟨ts, none⟩ := by
  have hclose : Lexeme.Closes gap := by
    by_cases hne : gap = []
    · rw [hne]
      exact Lexeme.closes_nil
    · rw [← List.append_nil gap]
      exact hgap.closes hne []
  have hrest : scanFrom file (pos.after body) (behind previous ts) gap = ⟨[], none⟩ := by
    rw [← List.append_nil gap, hgap.scanFrom, scanFrom_nil]
  rw [(h.closed hclose).scanFrom_append hf, hrest, prepend, List.append_nil]

/-- A source that ends at an offset. -/
def cutOff (source : String) (offset : Nat) : String := String.ofList (source.toList.take offset)

/-- Prefixes are scanned alike. A source that is cut off where one of its tokens ends has the tokens up to this one, and one that is
cut off where the scan fails has all that were found before. -/
theorem scan_cutOff (source : String) (file : Option String) :
    (∀ k : Fin (scan source file).tokens.length, scan (cutOff source (scan source file).tokens[k].stop.offset) file
      = ⟨(scan source file).tokens.take (k + 1), none⟩)
    ∧ ∀ e, (scan source file).error = some e → ∃ p : Nat, e.span.start.offset = some (p : Int)
      ∧ scan (cutOff source p) file = ⟨(scan source file).tokens, none⟩ := by
  have hf : ∀ t ∈ (scan source file).tokens, t.fault? = none := fun t ht =>
    (isScanned_of_mem_scanFrom file {} none source.toList t ht).inRange
  obtain ⟨body, gap, rest, htext, hgap, hcut, -, hfault⟩ := Cut.of_scan file {} none source.toList
  constructor
  · intro k
    have hsplit := List.take_append_drop (k + 1) (scan source file).tokens
    rw [show (scanFrom file {} none source.toList).tokens = _ from hsplit.symm] at hcut
    obtain ⟨front, back, rfl, hfront, -⟩ := hcut.split
    have hlast : ((scan source file).tokens.take (k + 1)).getLast? = some (scan source file).tokens[k] := by
      rw [List.take_succ_eq_append_getElem k.isLt, List.getLast?_concat]
      rfl
    have hstop : (scan source file).tokens[k].stop.offset = front.length := by
      rw [hfront.stop_eq hlast, Position.offset_after]
    have htake : source.toList.take front.length = front ++ [] := by
      rw [htext, List.append_assoc, List.take_left, List.append_nil]
    rw [hstop, cutOff, htake, scan, String.toList_ofList]
    exact hfront.scanFrom_cutOff .nil fun t ht => hf t (List.mem_of_mem_take ht)
  · intro e he
    refine ⟨(body ++ gap).length, ?_, ?_⟩
    · rw [hfault e he, Position.point, Position.offset_after]
    · have htake : source.toList.take (body ++ gap).length = body ++ gap := by
        rw [htext, ← List.append_assoc, List.take_left]
      rw [cutOff, htake, scan, String.toList_ofList]
      exact hcut.scanFrom_cutOff hgap.cutOff hf

/-- Behind four tokens a quote is never closed, and in front of it nothing is lost. -/
theorem scan_cutOff_quote : (scan "f(1, 'x" none).tokens.length = 4 ∧ ∃ e, (scan "f(1, 'x" none).error = some e
    ∧ ∃ p : Nat, e.span.start.offset = some (p : Int) ∧ scan (cutOff "f(1, 'x" p) none = ⟨(scan "f(1, 'x" none).tokens, none⟩ := by
  have htokens : (scan "f(1, 'x" none).tokens.length = 4 := by decide +kernel
  have herror : (scan "f(1, 'x" none).error.isSome = true := by decide +kernel
  obtain ⟨e, he⟩ := Option.isSome_iff_exists.mp herror
  exact ⟨htokens, e, he, (scan_cutOff "f(1, 'x" none).2 e he⟩

end Scan

end FlatScope
