import JsxTree.Text.Blank
import JsxTree.Text.Bytes

/-! Positions in a source text. A `Place` is a position together with what the next character
needs to know: whether a carriage return came just before. Every position of a text is the place
reached by counting through the text before it. -/
namespace JsxTree

structure Position where
  line : Nat
  column : Nat
  units : Option Nat
  offset : Nat
  deriving DecidableEq, Repr, Inhabited

namespace Position

def origin : Position := ⟨0, 0, some 0, 0⟩

instance : LE Position := ⟨fun a b => a.offset ≤ b.offset⟩

instance (a b : Position) : Decidable (a ≤ b) := inferInstanceAs (Decidable (a.offset ≤ b.offset))

instance : Ord Position := ⟨fun a b => compare a.offset b.offset⟩

theorem leRefl (a : Position) : a ≤ a := Nat.le_refl a.offset

theorem leTrans {a b c : Position} (hab : a ≤ b) (hbc : b ≤ c) : a ≤ c :=
  Nat.le_trans (m := b.offset) hab hbc

end Position

def utf16Units (c : Char) : Nat := if c.toNat < 0x10000 then 1 else 2

structure Place where
  line : Nat
  column : Nat
  units : Nat
  offset : Nat
  afterReturn : Bool
  deriving DecidableEq, Repr, Inhabited

namespace Place

def origin : Place := ⟨0, 0, 0, 0, false⟩

def position (p : Place) : Position := ⟨p.line, p.column, some p.units, p.offset⟩

/-- A carriage return and the line feed after it are one line break; the line feed moves the
offset only. -/
def next (p : Place) (c : Char) : Place :=
  let offset := p.offset + c.utf8Size
  if c = '\n' ∧ p.afterReturn then { p with offset, afterReturn := false }
  else if Text.isLineBreak c then ⟨p.line + 1, 0, 0, offset, c = '\r'⟩
  else ⟨p.line, p.column + 1, p.units + utf16Units c, offset, false⟩

def past (p : Place) (cs : List Char) : Place := cs.foldl next p

theorem nextOffset (p : Place) (c : Char) : (p.next c).offset = p.offset + c.utf8Size := by
  unfold next
  split <;> try rfl
  split <;> rfl

theorem pastNil (p : Place) : p.past [] = p := rfl

theorem pastCons (p : Place) (c : Char) (cs : List Char) : p.past (c :: cs) = (p.next c).past cs := rfl

theorem pastAppend (p : Place) (as bs : List Char) : p.past (as ++ bs) = (p.past as).past bs :=
  List.foldl_append

theorem pastOffset (p : Place) (cs : List Char) :
    (p.past cs).offset = p.offset + Text.byteLength cs := by
  induction cs generalizing p with
  | nil => rfl
  | cons c cs ih => rw [pastCons, ih, nextOffset, Text.byteLength, Nat.add_assoc]

theorem offsetLePast (p : Place) (cs : List Char) : p.offset ≤ (p.past cs).offset := by
  rw [pastOffset]; exact Nat.le_add_right _ _

end Place

end JsxTree
