import JsxTree.Proofs.Expressions
import JsxTree.Proofs.Preorder

/-! The spans of a tree that was parsed: each lies in the source between two characters, children
lie in their parent one after another, and a leaf spans its own text. -/
namespace JsxTree

def Text.Boundary (cs : List Char) (offset : Nat) : Prop :=
  ∃ before after, cs = before ++ after ∧ offset = byteLength before

theorem Text.boundaryLength {cs : List Char} {offset : Nat} (h : Boundary cs offset) : offset ≤ byteLength cs := by
  obtain ⟨before, after, rfl, rfl⟩ := h
  rw [byteLengthAppend]
  exact Nat.le_add_right _ _

namespace Cursor

variable {source : String} {a b : Cursor}

theorem Within.offset (h : a.Within source) :
    ∃ behind, source.toList = behind ++ a.rest ∧ a.place.offset = Text.byteLength behind := by
  obtain ⟨behind, whole, counted⟩ := h
  refine ⟨behind, whole, ?_⟩
  rw [counted, Place.pastOffset]
  exact Nat.zero_add _

theorem Within.boundary (h : a.Within source) : Text.Boundary source.toList a.position.offset := by
  obtain ⟨behind, whole, offset⟩ := h.offset
  exact ⟨behind, a.rest, whole, offset⟩

theorem Within.behind (h : a.Within source) : Text.dropBytes a.position.offset source.toList = some a.rest := by
  obtain ⟨behind, whole, offset⟩ := h.offset
  rw [show a.position.offset = _ from offset, whole]
  exact Text.dropBytesAppend behind a.rest

theorem Within.slice (h : a.Within source) {raw : List Char} (traced : a.Traces raw b) :
    Text.slice a.position.offset b.position.offset source.toList = some raw := by
  obtain ⟨behind, whole, offset⟩ := h.offset
  obtain ⟨rest, place⟩ := traced
  have later : b.position.offset = Text.byteLength (behind ++ raw) := by
    change b.place.offset = _
    rw [place, Place.pastOffset, offset, Text.byteLengthAppend]
  change Text.slice a.place.offset _ _ = _
  rw [later, offset, whole, rest, ← List.append_assoc]
  exact Text.sliceAppend behind raw b.rest

end Cursor

structure WellPlaced (source : String) (file : Option String) (n : Node) : Prop where
  path : n.span.file = file
  ordered : n.span.start.offset ≤ n.span.stop.offset
  bounded : n.span.stop.offset ≤ Text.byteLength source.toList
  starts : Text.Boundary source.toList n.span.start.offset
  stops : Text.Boundary source.toList n.span.stop.offset
  inside : ∀ c ∈ n.form.children,
    n.span.start.offset ≤ c.span.start.offset ∧ c.span.stop.offset ≤ n.span.stop.offset
  apart : n.form.children.Pairwise fun b c => b.span.stop.offset ≤ c.span.start.offset
  exact : ∀ text, n.form.leafText = some text →
    Text.slice n.span.start.offset n.span.stop.offset source.toList = some text.toList

namespace Laid

variable {source : String} {file : Option String} {a b : Cursor} {n : Node} {ns : List Node}

theorem member (h : Laid file a ns b) (inside : n ∈ ns) : ∃ s e, a.Reaches s ∧ Laid file s [n] e ∧ e.Reaches b ∧
    n.span.start = s.position ∧ n.span.stop = e.position := by
  induction h with
  | nil => cases inside
  | @cons a s e b form ns gap reach exact children rest _ ih =>
      cases inside with
      | head => exact ⟨s, e, gap, .cons s.reachesRefl reach exact children (.nil e.reachesRefl), rest.reaches, rfl, rfl⟩
      | tail _ inside =>
          obtain ⟨s', e', before, own, after, start, stop⟩ := ih inside
          exact ⟨s', e', (gap.trans reach).trans before, own, after, start, stop⟩

theorem apart (h : Laid file a ns b) : ns.Pairwise fun m n => m.span.stop.offset ≤ n.span.start.offset := by
  induction h with
  | nil => exact .nil
  | cons _ _ _ _ rest _ ih =>
      refine .cons (fun n inside => ?_) ih
      obtain ⟨s, _, before, _, _, start, _⟩ := rest.member inside
      rw [start]
      exact before.offset

theorem wellPlaced (h : Laid file a [n] b) (within : a.Within source) : WellPlaced source file n ∧
    ∀ c ∈ n.form.children, ∃ s e, s.Within source ∧ Laid file s [c] e := by
  cases h with
  | @cons _ s e _ form _ gap reach exact children rest =>
      have starts := gap.within within
      have stops := reach.within starts
      refine ⟨⟨rfl, reach.offset, Text.boundaryLength stops.boundary, starts.boundary, stops.boundary, ?_,
        children.apart, fun text leaf => starts.slice (exact text leaf)⟩, fun c inside => ?_⟩
      · intro c inside
        obtain ⟨s', e', before, own, after, start, stop⟩ := children.member inside
        rw [start, stop]
        exact ⟨before.offset, after.offset⟩
      · obtain ⟨s', e', before, own, -, -, -⟩ := children.member inside
        exact ⟨s', e', before.within starts, own⟩

end Laid

theorem treeWellPlaced {source : String} {config : Config} {file : Option String} {n : Node}
    (accepted : parse source config file = .ok n) : ∀ m ∈ n.preorder, WellPlaced source file m := by
  have read := Grammar.parseReads source config file
  rw [accepted] at read
  obtain ⟨c', reads, -⟩ := read
  have whole : Laid file (.start source) [n] c' := reads.laid
  exact @Node.everywhereOf (WellPlaced source file) (fun m => ∃ s e, s.Within source ∧ Laid file s [m] e)
    (fun m ⟨s, e, within, laid⟩ => laid.wellPlaced within) n ⟨.start source, c', Cursor.startWithin source, whole⟩

end JsxTree
