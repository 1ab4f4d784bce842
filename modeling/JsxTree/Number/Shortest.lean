import JsxTree.Number.Binary64

/-! The shortest decimal that reads back as a given number: of the decimals with the fewest
digits that round to it, the one nearest to it. -/
namespace JsxTree

structure Decimal where
  coefficient : Nat
  exponent : Int
  deriving DecidableEq, Repr

namespace Binary64

def digitCount (n : Nat) : Nat := (Nat.toDigits 10 n).length

def leadingExponent (n d : Nat) : Int :=
  if d ≤ n then (digitCount (n / d) : Int) - 1
  else if n = 0 then 0
  else -(digitCount ((d + n - 1) / n - 1) : Int)

def roundingBounds (x : Binary64) : Nat × Nat :=
  let step := Nat.pow 2 x.scale
  let below := if x.fraction.val = 0 ∧ 1 < x.exponent.val then step else 2 * step
  (4 * x.significand * step - below, 4 * x.significand * step + 2 * step)

/-- On the grid of multiples of `10 ^ e`, the point nearest to a positive number among those that
round to it; a tie goes to the even multiple. -/
def onGrid? (x : Binary64) (e : Int) : Option Nat :=
  let (low, high) := x.roundingBounds
  let n := 4 * x.significand * Nat.pow 2 x.scale * Nat.pow 10 (-e).toNat
  let d := Nat.pow 2 1076 * Nat.pow 10 e.toNat
  let even := x.significand % 2 == 0
  let fits (c : Nat) : Bool :=
    let lower := low * Nat.pow 10 (-e).toNat
    let upper := high * Nat.pow 10 (-e).toNat
    (lower < c * d && c * d < upper) || (even && (lower == c * d || c * d == upper))
  let near := roundDiv n d
  let far := if near = n / d then near + 1 else n / d
  if fits near then some near else if fits far then some far else none

def shortest (x : Binary64) : Decimal :=
  let top := leadingExponent (4 * x.significand * Nat.pow 2 x.scale) (Nat.pow 2 1076)
  let found := (List.range 17).findSome? fun (more : Nat) =>
    (x.onGrid? (top - more)).map fun c =>
      if c = Nat.pow 10 (more + 1) then Decimal.mk 1 (top + 1) else ⟨c, top - more⟩
  found.getD ⟨0, 0⟩

end Binary64

end JsxTree
