import JsxTree.Source.Position

/-! A cursor: a place in a source text and the text from there on. -/
namespace JsxTree

structure Cursor where
  place : Place
  rest : List Char
  deriving DecidableEq, Repr, Inhabited

namespace Cursor

def start (source : String) : Cursor := ⟨.origin, source.toList⟩

def position (c : Cursor) : Position := c.place.position

/-- Every cursor that is moved over the characters of `source` keeps this: what lies behind it
and what lies ahead make up the source, and its place is counted through what lies behind. -/
def Within (source : String) (c : Cursor) : Prop :=
  ∃ behind, source.toList = behind ++ c.rest ∧ c.place = Place.origin.past behind

theorem startWithin (source : String) : (start source).Within source := ⟨[], rfl, rfl⟩

theorem Within.move {source : String} {c : Cursor} (h : c.Within source) {raw rest : List Char}
    (split : c.rest = raw ++ rest) : Within source ⟨c.place.past raw, rest⟩ := by
  obtain ⟨behind, whole, counted⟩ := h
  refine ⟨behind ++ raw, ?_, ?_⟩
  · rw [whole, split, List.append_assoc]
  · rw [counted, Place.pastAppend]

end Cursor

end JsxTree
