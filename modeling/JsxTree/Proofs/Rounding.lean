import Mathlib
import JsxTree.Number.Binary64

/-! Rounding to the nearest number. By their magnitudes the numbers lie in one row, in which each is larger than the one
before; a value lies between two that follow one another, and is rounded to the nearer of them. -/
namespace JsxTree.Binary64

def value (x : Binary64) : ℚ := (if x.negative then -1 else 1) * (x.significand * 2 ^ x.scale : ℕ) / 2 ^ 1074

def overflow : ℚ := 2 ^ 1024 - 2 ^ 970

/-- What a value that is not negative is rounded to: the nearest number, of two that are equally near the even one, and from
half a step beyond the largest one on the infinite one. -/
structure Rounds (v : ℚ) (x : Binary64) : Prop where
  number : x.isNaN = false
  positive : x.negative = false
  infinite : x.isFinite = false ↔ overflow ≤ v
  nearest : x.isFinite = true → ∀ y : Binary64, y.isFinite = true → |x.value - v| ≤ |y.value - v|
  even : x.isFinite = true → ∀ y : Binary64, y.isFinite = true → |y.value - v| = |x.value - v| →
    y.value = x.value ∨ x.significand % 2 = 0

section Units

def units (m : ℕ) : ℕ :=
  if m / 0x10000000000000 = 0 then m % 0x10000000000000
  else (0x10000000000000 + m % 0x10000000000000) * 2 ^ (m / 0x10000000000000 - 1)

variable {s r m : ℕ}

theorem unitsGrid (small : r ≤ 0x20000000000000) (full : s = 0 ∨ 0x10000000000000 ≤ r) :
    units (s * 0x10000000000000 + r) = r * 2 ^ s := by
  unfold units
  rcases Nat.lt_or_ge r 0x10000000000000 with low | high
  · obtain rfl : s = 0 := full.resolve_right (by omega)
    rw [if_pos (by omega)]
    omega
  · rcases Nat.lt_or_eq_of_le small with inside | rfl
    · have quotient : (s * 0x10000000000000 + r) / 0x10000000000000 = s + 1 := by omega
      have remainder : (s * 0x10000000000000 + r) % 0x10000000000000 = r - 0x10000000000000 := by omega
      rw [quotient, remainder, if_neg (by omega), Nat.add_sub_cancel, Nat.add_sub_cancel' high]
    · have quotient : (s * 0x10000000000000 + 0x20000000000000) / 0x10000000000000 = s + 2 := by omega
      have remainder : (s * 0x10000000000000 + 0x20000000000000) % 0x10000000000000 = 0 := by omega
      rw [quotient, remainder, if_neg (by omega), show s + 2 - 1 = s + 1 from rfl, pow_succ]
      ring

theorem gridOf (m : ℕ) : ∃ s r, m = s * 0x10000000000000 + r ∧ r < 0x20000000000000 ∧ (s = 0 ∨ 0x10000000000000 ≤ r) := by
  rcases Nat.lt_or_ge m 0x10000000000000 with low | high
  · exact ⟨0, m, by omega, by omega, .inl rfl⟩
  · exact ⟨m / 0x10000000000000 - 1, m % 0x10000000000000 + 0x10000000000000, by omega, by omega, .inr (by omega)⟩

theorem unitsStep (m : ℕ) : units m < units (m + 1) := by
  obtain ⟨s, r, rfl, small, full⟩ := gridOf m
  rw [Nat.add_assoc, unitsGrid (Nat.le_of_lt small) full, unitsGrid small (by omega)]
  exact Nat.mul_lt_mul_of_pos_right (Nat.lt_succ_self r) (Nat.two_pow_pos s)

theorem unitsMono : StrictMono units := strictMono_nat_of_lt_succ unitsStep

theorem unitsMagnitude (x : Binary64) : units x.magnitude = x.significand * 2 ^ x.scale := by
  obtain ⟨negative, ⟨e, he⟩, ⟨f, hf⟩⟩ := x
  have quotient : (e * 0x10000000000000 + f) / 0x10000000000000 = e := by omega
  have remainder : (e * 0x10000000000000 + f) % 0x10000000000000 = f := by omega
  simp only [units, magnitude, significand, scale, quotient, remainder]
  split
  · rename_i zero
    simp [zero]
  · rfl

theorem valueUnits (x : Binary64) : x.value = (if x.negative then -1 else 1) * (units x.magnitude : ℚ) / 2 ^ 1074 := by
  rw [value, unitsMagnitude]

theorem significandParity (x : Binary64) : x.significand % 2 = x.magnitude % 2 := by
  obtain ⟨negative, ⟨e, he⟩, ⟨f, hf⟩⟩ := x
  simp only [significand, magnitude]
  split <;> omega

end Units

section Between

structure Between (u : ℚ) (low m : ℕ) : Prop where
  above : (units low : ℚ) ≤ u
  below : u < units (low + 1)
  side : m = low ∧ 2 * u ≤ units low + units (low + 1) ∨ m = low + 1 ∧ units low + units (low + 1) ≤ 2 * u
  tie : 2 * u = units low + units (low + 1) → m % 2 = 0

theorem roundDivCases (n d : ℕ) :
    roundDiv n d = n / d ∧ 2 * (n % d) ≤ d ∧ (2 * (n % d) = d → n / d % 2 = 0) ∨
    roundDiv n d = n / d + 1 ∧ d ≤ 2 * (n % d) ∧ (2 * (n % d) = d → n / d % 2 = 1) := by
  simp only [roundDiv]
  split <;> omega

theorem scaleFits (k : ℕ) : k / 2 ^ (k.log2 - 52) < 0x20000000000000 ∧
    (k.log2 - 52 = 0 ∨ 0x10000000000000 ≤ k / 2 ^ (k.log2 - 52)) := by
  have upper : k < 2 ^ (k.log2 + 1) := Nat.lt_log2_self
  have within : k.log2 + 1 ≤ (k.log2 - 52) + 53 := by omega
  constructor
  · apply Nat.div_lt_of_lt_mul
    calc k < 2 ^ (k.log2 + 1) := upper
      _ ≤ 2 ^ ((k.log2 - 52) + 53) := Nat.pow_le_pow_right (by omega) within
      _ = 2 ^ (k.log2 - 52) * 0x20000000000000 := by rw [pow_add]; norm_num
  · rcases Nat.lt_or_ge 52 k.log2 with large | small
    · right
      have nonzero : k ≠ 0 := by
        rintro rfl
        simp at large
      rw [Nat.le_div_iff_mul_le (Nat.two_pow_pos _)]
      calc 0x10000000000000 * 2 ^ (k.log2 - 52) = 2 ^ (52 + (k.log2 - 52)) := by rw [pow_add]; norm_num
        _ = 2 ^ k.log2 := by rw [Nat.add_sub_cancel' (Nat.le_of_lt large)]
        _ ≤ k := Nat.log2_self_le nonzero
    · left
      omega

theorem halfStep {r d scale : ℕ} (positive : 0 < d) :
    (2 * ((r : ℚ) / d) ≤ 2 ^ scale ↔ 2 * r ≤ d * 2 ^ scale) ∧ ((2 : ℚ) ^ scale ≤ 2 * (r / d) ↔ d * 2 ^ scale ≤ 2 * r) := by
  have divisor : (0 : ℚ) < d := Nat.cast_pos.mpr positive
  rw [← mul_div_assoc, div_le_iff₀ divisor, le_div_iff₀ divisor, Nat.mul_comm d]
  exact ⟨by exact_mod_cast Iff.rfl, by exact_mod_cast Iff.rfl⟩

theorem betweenGrid {u step part : ℚ} {low m q : ℕ} (value : u = q * step + part) (here : (units low : ℚ) = q * step)
    (next : (units (low + 1) : ℚ) = (q + 1) * step) (whole : 0 ≤ part) (less : part < step)
    (side : m = low ∧ 2 * part ≤ step ∨ m = low + 1 ∧ step ≤ 2 * part) (tie : 2 * part = step → m % 2 = 0) :
    Between u low m := by
  subst value
  refine ⟨by linarith, by linarith, ?_, fun middle => tie (by linarith)⟩
  obtain ⟨same, below⟩ | ⟨same, above⟩ := side
  · exact .inl ⟨same, by linarith⟩
  · exact .inr ⟨same, by linarith⟩

theorem roundedBetween {steps d scale : ℕ} (positive : 0 < d) (chosen : scale = (steps / d).log2 - 52) : ∃ low,
    Between (steps / d) low (scale * 0x10000000000000 + roundDiv steps (d * Nat.pow 2 scale)) := by
  rw [Nat.pow_eq]
  obtain ⟨small, full⟩ := scaleFits (steps / d)
  rw [← chosen, Nat.div_div_eq_div_mul] at small full
  have split := Nat.div_add_mod steps (d * 2 ^ scale)
  have rest : steps % (d * 2 ^ scale) < d * 2 ^ scale := Nat.mod_lt _ (Nat.mul_pos positive (Nat.two_pow_pos _))
  have cases := roundDivCases steps (d * 2 ^ scale)
  -- The value is `q` steps of the grid and `r / d`; `roundDiv` compares `r` with half of a step.
  generalize steps / (d * 2 ^ scale) = q at *
  generalize steps % (d * 2 ^ scale) = r at *
  generalize roundDiv steps (d * 2 ^ scale) = rounded at *
  have here : units (scale * 0x10000000000000 + q) = q * 2 ^ scale := unitsGrid (Nat.le_of_lt small) full
  have next : units (scale * 0x10000000000000 + q + 1) = (q + 1) * 2 ^ scale := by
    rw [Nat.add_assoc]
    exact unitsGrid small (by omega)
  have divisor : (0 : ℚ) < d := Nat.cast_pos.mpr positive
  obtain ⟨atMost, atLeast⟩ := @halfStep r d scale positive
  have value : (steps : ℚ) / d = q * 2 ^ scale + r / d := by
    rw [← split]
    push_cast
    field_simp
  have less : (r : ℚ) / d < 2 ^ scale := by
    rw [div_lt_iff₀ divisor]
    exact_mod_cast (Nat.mul_comm d (2 ^ scale)) ▸ rest
  refine ⟨_, betweenGrid value (by exact_mod_cast here) (by exact_mod_cast next) (by positivity) less ?_ fun middle => ?_⟩
  · obtain ⟨rfl, below, -⟩ | ⟨rfl, above, -⟩ := cases
    · exact .inl ⟨rfl, atMost.mpr below⟩
    · exact .inr ⟨(Nat.add_assoc _ _ _).symm, atLeast.mpr above⟩
  · have half : 2 * r = d * 2 ^ scale := Nat.le_antisymm (atMost.mp middle.le) (atLeast.mp middle.ge)
    obtain ⟨rfl, -, even⟩ | ⟨rfl, -, odd⟩ := cases
    · have := even half
      omega
    · have := odd half
      omega

variable {u : ℚ} {low m : ℕ}

theorem unitsApart (low other : ℕ) : (units other : ℚ) ≤ units low ∨ (units (low + 1) : ℚ) ≤ units other := by
  rcases Nat.lt_or_ge low other with larger | smaller
  · exact .inr (Nat.cast_le.mpr (unitsMono.monotone larger))
  · exact .inl (Nat.cast_le.mpr (unitsMono.monotone smaller))

theorem Between.nearest (h : Between u low m) (other : ℕ) : |(units m : ℚ) - u| ≤ |(units other : ℚ) - u| := by
  obtain ⟨above, below, ⟨rfl, near⟩ | ⟨rfl, near⟩, -⟩ := h
  · rw [abs_of_nonpos (sub_nonpos.mpr above)]
    rcases unitsApart m other with before | behind
    · rw [abs_of_nonpos (by linarith)]
      linarith
    · rw [abs_of_nonneg (by linarith)]
      linarith
  · rw [abs_of_nonneg (by linarith)]
    rcases unitsApart low other with before | behind
    · rw [abs_of_nonpos (by linarith)]
      linarith
    · rw [abs_of_nonneg (by linarith)]
      linarith

theorem Between.even (h : Between u low m) {other : ℕ} (same : |(units other : ℚ) - u| = |(units m : ℚ) - u|) :
    (units other : ℚ) = units m ∨ m % 2 = 0 := by
  obtain ⟨above, below, ⟨rfl, near⟩ | ⟨rfl, near⟩, tie⟩ := h
  · rw [abs_of_nonpos (sub_nonpos.mpr above)] at same
    rcases unitsApart m other with before | behind
    · rw [abs_of_nonpos (by linarith)] at same
      exact .inl (by linarith)
    · rw [abs_of_nonneg (by linarith)] at same
      exact .inr (tie (by linarith))
  · rw [abs_of_nonneg (by linarith : (0 : ℚ) ≤ units (low + 1) - u)] at same
    rcases unitsApart low other with before | behind
    · rw [abs_of_nonpos (by linarith)] at same
      exact .inr (tie (by linarith))
    · rw [abs_of_nonneg (by linarith)] at same
      exact .inl (by linarith)

theorem Between.reaches (h : Between u low m) {j : ℕ} (odd : j % 2 = 1) :
    j + 1 ≤ m ↔ (units j + units (j + 1) : ℚ) ≤ 2 * u := by
  obtain ⟨above, below, side, tie⟩ := h
  have order : (units j : ℚ) < units (j + 1) := Nat.cast_lt.mpr (unitsStep j)
  rcases Nat.lt_trichotomy low j with less | rfl | more
  · have upTo : (units (low + 1) : ℚ) ≤ units j := Nat.cast_le.mpr (unitsMono.monotone less)
    constructor
    · intro large
      omega
    · intro middle
      linarith
  · constructor
    · intro large
      rcases side with ⟨rfl, -⟩ | ⟨-, near⟩
      · omega
      · exact near
    · intro middle
      rcases side with ⟨rfl, near⟩ | ⟨rfl, -⟩
      · have even := tie (le_antisymm near middle)
        omega
      · exact le_rfl
  · have from' : (units (j + 1) : ℚ) ≤ units low := Nat.cast_le.mpr (unitsMono.monotone more)
    constructor
    · intro _
      linarith
    · intro _
      omega

end Between

section Nearest

variable {d low m : ℕ}

theorem overflowUnits : (units (infinityMagnitude - 1) + units infinityMagnitude : ℚ) = 2 * (overflow * 2 ^ 1074) := by
  have last : units (infinityMagnitude - 1) = 0x1fffffffffffff * 2 ^ 2045 :=
    unitsGrid (s := 2045) (r := 0x1fffffffffffff) (by decide) (.inr (by decide))
  have infinite : units infinityMagnitude = 0x20000000000000 * 2 ^ 2045 :=
    unitsGrid (s := 2045) (r := 0x20000000000000) (by decide) (.inr (by decide))
  have larger : (2 : ℚ) ^ 2045 = 2 * 2 ^ 970 * 2 ^ 1074 := by rw [← pow_succ', ← pow_add]
  have large : (2 : ℚ) ^ 1024 = 0x40000000000000 * 2 ^ 970 := by
    rw [show (0x40000000000000 : ℚ) = 2 ^ 54 by norm_num, ← pow_add]
  rw [last, infinite, overflow, Nat.cast_mul, Nat.cast_mul, Nat.cast_pow, Nat.cast_ofNat, Nat.cast_ofNat, Nat.cast_ofNat, larger,
    large]
  generalize (2 : ℚ) ^ 970 = half
  generalize (2 : ℚ) ^ 1074 = smallest
  ring

theorem distanceUnits (x : Binary64) (u : ℚ) : |x.value - u / 2 ^ 1074| =
    |(if x.negative then -1 else 1) * (units x.magnitude : ℚ) - u| / 2 ^ 1074 := by
  rw [valueUnits, ← sub_div, abs_div, abs_of_pos (by positivity : (0 : ℚ) < 2 ^ 1074)]

theorem signFarther {a u : ℚ} (ha : 0 ≤ a) (hu : 0 ≤ u) (negative : Bool) :
    |a - u| ≤ |(if negative then -1 else 1) * a - u| := by
  cases negative
  · simp
  · simp only [if_true]
    rw [abs_of_nonpos (by linarith : -1 * a - u ≤ 0)]
    exact abs_le.mpr ⟨by linarith, by linarith⟩

theorem signZero {a u : ℚ} (ha : 0 ≤ a) (hu : 0 ≤ u) (same : |(if true then -1 else 1) * a - u| = |a - u|)
    (nearest : |a - u| ≤ |(units 0 : ℚ) - u|) : a = 0 := by
  simp only [if_true] at same
  rw [abs_of_nonpos (by linarith : -1 * a - u ≤ 0)] at same
  rcases le_total u a with before | behind
  · rw [abs_of_nonneg (sub_nonneg.mpr before)] at same
    obtain rfl : u = 0 := by linarith
    rw [show units 0 = 0 from rfl, Nat.cast_zero, sub_zero, sub_zero, abs_zero, abs_of_nonneg ha] at nearest
    exact le_antisymm nearest ha
  · rw [abs_of_nonpos (sub_nonpos.mpr behind)] at same
    linarith

theorem Between.rounds {v : ℚ} (h : Between (v * 2 ^ 1074) low m) (positive : 0 ≤ v) :
    Rounds v (ofMagnitude false (min infinityMagnitude m)) := by
  have above : 0 ≤ v * 2 ^ 1074 := mul_nonneg positive (by positivity)
  have value : v = v * 2 ^ 1074 / 2 ^ 1074 := (mul_div_cancel_right₀ _ (by positivity)).symm
  generalize v * 2 ^ 1074 = u at *
  have magnitude : (ofMagnitude false (min infinityMagnitude m)).magnitude = min infinityMagnitude m :=
    magnitudeOfMagnitude false (Nat.lt_of_le_of_lt (Nat.min_le_left _ _) (by decide))
  have sign : (ofMagnitude false (min infinityMagnitude m)).negative = false := rfl
  generalize ofMagnitude false (min infinityMagnitude m) = x at *
  have finite (finite : x.isFinite = true) : x.magnitude = m := by
    simp only [isFinite, decide_eq_true_eq] at finite
    omega
  have distance (known : x.isFinite = true) : |x.value - u / 2 ^ 1074| = |(units m : ℚ) - u| / 2 ^ 1074 := by
    rw [distanceUnits, sign, finite known]
    simp
  rw [value]
  -- Distances are compared in units of the smallest number, where magnitudes are whole.
  refine ⟨?_, sign, ?_, fun known y _ => ?_, fun known y _ tie => ?_⟩
  · simp only [isNaN, decide_eq_false_iff_not]
    omega
  · have reaches := h.reaches (j := infinityMagnitude - 1) (by decide)
    rw [show infinityMagnitude - 1 + 1 = infinityMagnitude from rfl, overflowUnits] at reaches
    rw [le_div_iff₀ (by positivity), ← mul_le_mul_iff_right₀ (by norm_num : (0 : ℚ) < 2), ← reaches]
    simp only [isFinite, decide_eq_false_iff_not]
    omega
  · rw [distance known, distanceUnits]
    apply div_le_div_of_nonneg_right _ (by positivity)
    exact (h.nearest _).trans (signFarther (Nat.cast_nonneg _) above _)
  · rw [distanceUnits, distance known, div_left_inj' (by positivity)] at tie
    have nearer := (signFarther (Nat.cast_nonneg (units y.magnitude)) above y.negative).trans_eq tie
    rcases h.even (le_antisymm nearer (h.nearest _)) with equal | even
    · left
      rw [valueUnits, valueUnits x, sign, finite known, ← equal]
      rw [← equal] at tie
      cases negative : y.negative with
      | false => rfl
      | true =>
          rw [negative] at tie
          rw [signZero (Nat.cast_nonneg _) above tie (equal ▸ h.nearest 0)]
          simp
    · right
      rw [significandParity, finite known, even]

theorem castSteps (n e : ℕ) : ((n * Nat.pow 2 e : ℕ) : ℚ) = n * 2 ^ e := by
  rw [Nat.cast_mul]
  exact congrArg _ (Nat.cast_pow 2 e)

theorem nearestRounds (n : ℕ) (positive : 0 < d) : Rounds (n / d) (nearest n d) := by
  obtain ⟨low, between⟩ := @roundedBetween (n * Nat.pow 2 1074) _ _ positive rfl
  simp only [castSteps, mul_div_right_comm] at between
  exact between.rounds (by positivity)

theorem betweenZero {u : ℚ} (above : 0 ≤ u) (small : u * 2 ≤ 1) : Between u 0 0 := by
  have none : ((units 0 : ℕ) : ℚ) = 0 := Nat.cast_zero
  have one : ((units (0 + 1) : ℕ) : ℚ) = 1 := Nat.cast_one
  exact ⟨by linarith, by linarith, .inl ⟨rfl, by linarith⟩, fun _ => rfl⟩

theorem zeroRounds {v : ℚ} (positive : 0 ≤ v) (small : v * 2 ^ 1074 * 2 ≤ 1) : Rounds v zero := by
  have rounds := (betweenZero (mul_nonneg positive (by positivity)) small).rounds positive
  rwa [Nat.min_zero] at rounds

theorem infinityRounds {v : ℚ} (large : overflow ≤ v) : Rounds v infinity := by
  have infinite : infinity.isFinite = false := by decide
  refine ⟨by decide, by decide, iff_of_true infinite large, fun finite => ?_, fun finite => ?_⟩
  all_goals
    rw [infinite] at finite
    cases finite

end Nearest

end JsxTree.Binary64
