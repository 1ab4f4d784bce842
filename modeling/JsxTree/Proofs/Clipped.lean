import JsxTree.Proofs.Carried
import JsxTree.Proofs.Cutting

/-! Reading a text that is cut short. Whatever is read in front of the cut is read from what is left of the text, at
no greater depth, as the same but for spans. -/
namespace JsxTree

variable {cut : Cut} {m : Mode} {b c c' : Cursor} {items : List Item}

def Item.Before (cut : Cut) : Item → Prop
  | .token _ back | .text _ back => back.Before cut
  | .bare _ => True

theorem Strings.before (h : Strings c items c') (later : c'.Before cut) : ∀ item ∈ items, item.Before cut := by
  intro item inside
  cases item with
  | token | text => exact (h.within _ inside).2.before later
  | bare => exact trivial

def Cut.passage (cut : Cut) : Passage where
  rel := Cursor.Clipped cut
  spares := Item.Before cut
  ends c := cut.new = [] ∧ c.rest = cut.old
  token _ _ _ _ _ clipped next valid later := Cursor.nextClipped clipped next valid later
  text _ _ _ _ clipped run later := Cursor.textClipped clipped run later
  bare _ _ clipped textless _ := Cursor.textlessClipped clipped textless
  nothing _ _ _ clipped ends := Cursor.clippedEnd clipped ends.1 ends.2

theorem seesBefore (h : cut.passage.Sees m c) : c.Before cut := by
  rcases h with ⟨-, ends⟩ | ⟨k, c', next, -, later⟩
  · rw [Cursor.Before, ends]
  · exact (Cursor.nextReaches next).before later

namespace Grammar

open Cursor JsxTree.Parser

variable {x : Setting} {ph : Phrase} {d d' : Nat}

theorem Reads.clipped (h : Reads x ph m d c c') (again : Option String) (shallower : d' ≤ d)
    (clipped : c.Clipped cut b) (later : c'.Before cut) (faces : ph.Faces cut.passage m c') :
    ph.Anew (Clipped cut) ⟨x.config, again⟩ m d' b c' := by
  obtain ⟨items, spelled⟩ := h.spelled
  exact Spells.carried (w := cut.passage) spelled again shallower (spelled.strings.before later) clipped faces

end Grammar

end JsxTree
