/-! Sets of characters written as ranges of code points. -/
namespace JsxTree.Text

structure CodeRange where
  first : Nat
  last : Nat
  deriving DecidableEq, Repr

def CodeRange.holds (r : CodeRange) (c : Char) : Bool := r.first ≤ c.toNat && c.toNat ≤ r.last

theorem CodeRange.holdsIff {r : CodeRange} {c : Char} :
    r.holds c = true ↔ r.first ≤ c.toNat ∧ c.toNat ≤ r.last := by
  simp [CodeRange.holds]

end JsxTree.Text
