/-! Binary floating-point numbers of 64 bits, by their three fields, and rounding of exact
quotients to the nearest of them. All arithmetic is on natural numbers. -/
namespace JsxTree

structure Binary64 where
  negative : Bool
  exponent : Fin 2048
  fraction : Fin 0x10000000000000
  deriving DecidableEq, Repr

namespace Binary64

def magnitude (x : Binary64) : Nat := x.exponent.val * 0x10000000000000 + x.fraction.val

def ofMagnitude (negative : Bool) (m : Nat) : Binary64 :=
  ⟨negative, ⟨m / 0x10000000000000 % 2048, Nat.mod_lt _ (by decide)⟩,
    ⟨m % 0x10000000000000, Nat.mod_lt _ (by decide)⟩⟩

def toBits (x : Binary64) : Nat := (if x.negative then 0x8000000000000000 else 0) + x.magnitude

def ofBits (bits : Nat) : Binary64 := ofMagnitude (bits / 0x8000000000000000 % 2 == 1) bits

def infinityMagnitude : Nat := 0x7FF0000000000000

def zero : Binary64 := ofMagnitude false 0
def infinity : Binary64 := ofMagnitude false infinityMagnitude
def nan : Binary64 := ofMagnitude false (infinityMagnitude + 0x8000000000000)

def isNaN (x : Binary64) : Bool := infinityMagnitude < x.magnitude
def isFinite (x : Binary64) : Bool := x.magnitude < infinityMagnitude
def isZero (x : Binary64) : Bool := x.magnitude == 0

def equals (x y : Binary64) : Bool := !x.isNaN && (x == y || (x.isZero && y.isZero))

/-- A finite number is its sign and `significand * 2 ^ scale / 2 ^ 1074`. -/
def significand (x : Binary64) : Nat :=
  if x.exponent.val = 0 then x.fraction.val else 0x10000000000000 + x.fraction.val

def scale (x : Binary64) : Nat := x.exponent.val - 1

def roundDiv (n d : Nat) : Nat :=
  let twice := 2 * (n % d)
  if d < twice ∨ (d = twice ∧ n / d % 2 = 1) then n / d + 1 else n / d

/-- The number nearest to `n / d`; a half goes to the even significand, and what lies beyond the
largest number by half a step or more is infinite. A significand rounded up to the next power of
two carries into the exponent, as it should. -/
def nearest (n d : Nat) : Binary64 :=
  let steps := n * Nat.pow 2 1074
  let scale := (steps / d).log2 - 52
  ofMagnitude false (min infinityMagnitude (scale * 0x10000000000000 + roundDiv steps (d * Nat.pow 2 scale)))

theorem magnitudeOfMagnitude {m : Nat} (negative : Bool) (h : m < 0x8000000000000000) :
    (ofMagnitude negative m).magnitude = m := by
  simp only [ofMagnitude, magnitude]
  omega

theorem ofMagnitudeMagnitude (x : Binary64) : ofMagnitude x.negative x.magnitude = x := by
  obtain ⟨s, ⟨e, he⟩, ⟨f, hf⟩⟩ := x
  simp only [ofMagnitude, magnitude, mk.injEq, Fin.mk.injEq, true_and]
  omega

theorem ofBitsToBits (x : Binary64) : ofBits x.toBits = x := by
  have small : x.magnitude < 0x8000000000000000 := by
    obtain ⟨s, ⟨e, he⟩, ⟨f, hf⟩⟩ := x
    simp only [magnitude]; omega
  have sign : (x.toBits / 0x8000000000000000 % 2 == 1) = x.negative := by
    unfold toBits
    cases hs : x.negative
    · simp only [Bool.false_eq_true, if_false, Nat.zero_add, Nat.div_eq_of_lt small]; rfl
    · have shifted : (0x8000000000000000 + x.magnitude) / 0x8000000000000000 = 1 := by omega
      simp only [if_true, shifted]; rfl
  unfold ofBits
  rw [sign]
  have same : ofMagnitude x.negative x.toBits = ofMagnitude x.negative x.magnitude := by
    unfold toBits
    cases x.negative
    · simp
    · simp only [if_true, ofMagnitude, mk.injEq, Fin.mk.injEq, true_and]
      omega
  rw [same, ofMagnitudeMagnitude]

end Binary64

end JsxTree
