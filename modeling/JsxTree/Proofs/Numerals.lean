import JsxTree.Literal.Numeral
import JsxTree.Proofs.Escapes
import JsxTree.Proofs.Rounding

/-! What numerals denote, and how they are evaluated. Digits denote an exact number, however many there are; the value is what
that number is rounded to. Only the digits behind a mark of a radix are read as a whole number of 64 bits first. -/
namespace JsxTree.Literal

open Binary64 (Rounds)

def radixMarks : List (Char × ℕ) := [('x', 16), ('X', 16), ('o', 8), ('O', 8), ('b', 2), ('B', 2)]

inductive Mantissa : List Char → ℚ → Prop where
  | whole {cs : List Char} (nonempty : cs ≠ []) (digits : Digits 10 cs) : Mantissa cs (number 10 cs)
  | point {cs ds : List Char} (nonempty : cs ++ ds ≠ []) (before : Digits 10 cs) (behind : Digits 10 ds) :
      Mantissa (cs ++ '.' :: ds) (number 10 cs + number 10 ds / 10 ^ ds.length)

inductive Exponent : List Char → ℤ → Prop where
  | absent : Exponent [] 0
  | bare {e : Char} {ds : List Char} (mark : e = 'e' ∨ e = 'E') (nonempty : ds ≠ []) (digits : Digits 10 ds) :
      Exponent (e :: ds) (number 10 ds)
  | plus {e : Char} {ds : List Char} (mark : e = 'e' ∨ e = 'E') (nonempty : ds ≠ []) (digits : Digits 10 ds) :
      Exponent (e :: '+' :: ds) (number 10 ds)
  | minus {e : Char} {ds : List Char} (mark : e = 'e' ∨ e = 'E') (nonempty : ds ≠ []) (digits : Digits 10 ds) :
      Exponent (e :: '-' :: ds) (-number 10 ds)

/-- What a numeral without separators denotes. -/
inductive Amounts : List Char → ℚ → Prop where
  | decimal {cs es : List Char} {v : ℚ} {k : ℤ} (mantissa : Mantissa cs v) (exponent : Exponent es k) :
      Amounts (cs ++ es) (v * 10 ^ k)
  | radix {mark : Char} {base : ℕ} {ds : List Char} (marked : (mark, base) ∈ radixMarks) (nonempty : ds ≠ [])
      (digits : Digits base ds) : Amounts ('0' :: mark :: ds) (number base ds)

def Prefixed (text : List Char) (base : ℕ) (ds : List Char) : Prop :=
  ∃ mark, (mark, base) ∈ radixMarks ∧ text = '0' :: mark :: ds

def IllPrefixed (text : List Char) : Prop :=
  ∃ base ds, Prefixed text base ds ∧ (ds = [] ∨ ∃ d ∈ ds, base ≤ digitValue d)

def Wide (text : List Char) (v : ℚ) : Prop := (∃ base ds, Prefixed text base ds) ∧ 2 ^ 64 ≤ v

def bare (cs : List Char) : List Char := cs.filter (· ≠ '_')

section Digits

variable {cs ds es text : List Char} {v : ℚ} {k : ℤ} {base : ℕ}

theorem decimalDigitIff (c : Char) : c.isDigit = true ↔ c ∈ digits ∧ digitValue c < 10 := by
  have known : ∀ c ∈ digits, c.isDigit = true ↔ digitValue c < 10 := Text.every (by decide)
  constructor
  · intro digit
    have hex : Lexeme.isHexDigit c = true := by simp [Lexeme.isHexDigit, digit]
    have among := ((hexDigitIff c).mp hex).1
    exact ⟨among, (known c among).mp digit⟩
  · exact fun digit => (known c digit.1).mpr digit.2

theorem decimalDigits : Digits 10 cs ↔ ∀ c ∈ cs, c.isDigit = true :=
  forall₂_congr fun c _ => (decimalDigitIff c).symm

theorem digitsAppend (first : Digits base cs) (second : Digits base ds) : Digits base (cs ++ ds) :=
  List.forall_mem_append.mpr ⟨first, second⟩

theorem numberAppend (base : ℕ) (cs ds : List Char) :
    number base (cs ++ ds) = number base cs * base ^ ds.length + number base ds := by
  rw [number, List.reverse_append, List.map_append, Nat.ofDigits_append, number, number, List.length_map, List.length_reverse]
  ring

end Digits

section Decimals

variable {cs ds es text : List Char} {v : ℚ} {k : ℤ} {n m : ℕ}

theorem scaledQuotient (n : ℕ) (k : ℤ) :
    ((n * Nat.pow 10 k.toNat : ℕ) : ℚ) / (Nat.pow 10 (-k).toNat : ℕ) = n * 10 ^ k := by
  have power (e : ℕ) : ((Nat.pow 10 e : ℕ) : ℚ) = 10 ^ e := Nat.cast_pow 10 e
  rw [Nat.cast_mul, power, power, mul_div_assoc, ← zpow_natCast, ← zpow_natCast, ← zpow_sub₀ (by norm_num)]
  congr 2
  omega

theorem powersLarge : (2 : ℚ) ^ 1074 * 2 ≤ 10 ^ 400 := by
  calc (2 : ℚ) ^ 1074 * 2 = 2 ^ 1075 := (pow_succ 2 1074).symm
    _ ≤ 2 ^ (3 * 400) := pow_le_pow_right₀ (by norm_num) (by norm_num)
    _ = (2 ^ 3) ^ 400 := pow_mul 2 3 400
    _ ≤ 10 ^ 400 := pow_le_pow_left₀ (by norm_num) (by norm_num) 400

theorem overflowBelow : Binary64.overflow ≤ 10 ^ 400 := by
  calc Binary64.overflow ≤ 2 ^ 1024 := sub_le_self _ (by positivity)
    _ ≤ 2 ^ 1075 := pow_le_pow_right₀ (by norm_num) (by norm_num)
    _ = 2 ^ 1074 * 2 := pow_succ 2 1074
    _ ≤ 10 ^ 400 := powersLarge

theorem ofDecimalRounds (digits : Digits 10 cs) (k : ℤ) :
    Rounds (number 10 cs * 10 ^ k) (ofDecimal (cs.map hexDigit) k) := by
  have bound : (number 10 cs : ℚ) ≤ 10 ^ cs.length := by exact_mod_cast Nat.le_of_lt (numberBound (by decide) digits)
  simp only [ofDecimal, ofDigitsNumber digits, List.length_map]
  generalize number 10 cs = n at *
  have power : (0 : ℚ) < 10 ^ k := by positivity
  -- Beyond 400 powers of ten either way the answer is known without the power.
  split
  · rename_i none
    rw [none, Nat.cast_zero, zero_mul]
    exact Binary64.zeroRounds le_rfl (by rw [zero_mul, zero_mul]; exact zero_le_one)
  · rename_i some
    split
    · rename_i large
      apply Binary64.infinityRounds
      have one : (1 : ℚ) ≤ n := Nat.one_le_cast.mpr (Nat.one_le_iff_ne_zero.mpr some)
      calc Binary64.overflow ≤ 10 ^ 400 := overflowBelow
        _ = 10 ^ (400 : ℤ) := (zpow_natCast 10 400).symm
        _ ≤ 10 ^ k := zpow_le_zpow_right₀ (by norm_num) large
        _ ≤ n * 10 ^ k := le_mul_of_one_le_left power.le one
    · split
      · rename_i small
        apply Binary64.zeroRounds (by positivity)
        have tiny : (n : ℚ) * 10 ^ k ≤ (10 ^ 400)⁻¹ := by
          calc (n : ℚ) * 10 ^ k ≤ 10 ^ cs.length * 10 ^ k := mul_le_mul_of_nonneg_right bound power.le
            _ = 10 ^ (k + cs.length) := by rw [← zpow_natCast, ← zpow_add₀ (by norm_num), add_comm]
            _ ≤ 10 ^ (-400 : ℤ) := zpow_le_zpow_right₀ (by norm_num) small
            _ = (10 ^ 400)⁻¹ := by rw [zpow_neg]; exact congrArg _ (zpow_natCast 10 400)
        calc (n : ℚ) * 10 ^ k * 2 ^ 1074 * 2 = n * 10 ^ k * (2 ^ 1074 * 2) := mul_assoc _ _ _
          _ ≤ (10 ^ 400)⁻¹ * 10 ^ 400 := mul_le_mul tiny powersLarge (by positivity) (by positivity)
          _ = 1 := inv_mul_cancel₀ (by positivity)
      · rw [← scaledQuotient]
        exact Binary64.nearestRounds _ (Nat.pow_pos (by decide))

theorem signBare {d : Char} (digit : d.isDigit = true) (ds : List Char) : Lexeme.splitSign (d :: ds) = ([], d :: ds) := by
  have plus : d ≠ '+' := fun same => by simp [same] at digit
  have minus : d ≠ '-' := fun same => by simp [same] at digit
  simp [Lexeme.splitSign, plus, minus]

theorem exponentRead (h : Exponent es k) : exponent? es = some k := by
  have marked {e : Char} (mark : e = 'e' ∨ e = 'E') : (e == 'e' || e == 'E') = true := by
    rw [Bool.or_eq_true, beq_iff_eq, beq_iff_eq]
    exact mark
  cases h with
  | absent => rfl
  | @bare e ds mark nonempty digits =>
      have all := List.all_eq_true.mpr (decimalDigits.mp digits)
      obtain ⟨d, more, rfl⟩ := List.exists_cons_of_ne_nil nonempty
      have sign := signBare (decimalDigits.mp digits d List.mem_cons_self) more
      simp [exponent?, sign, marked mark, all, ← ofDigitsNumber digits]
  | @plus e ds mark nonempty digits =>
      have all := List.all_eq_true.mpr (decimalDigits.mp digits)
      have some : ds.isEmpty = false := by simpa using nonempty
      have sign : Lexeme.splitSign ('+' :: ds) = (['+'], ds) := rfl
      simp [exponent?, sign, marked mark, all, some, ofDigitsNumber digits]
  | @minus e ds mark nonempty digits =>
      have all := List.all_eq_true.mpr (decimalDigits.mp digits)
      have some : ds.isEmpty = false := by simpa using nonempty
      have sign : Lexeme.splitSign ('-' :: ds) = (['-'], ds) := rfl
      simp [exponent?, sign, marked mark, all, some, ofDigitsNumber digits]

theorem exponentHead (h : Exponent es k) : ∀ e, es.head? = some e → e = 'e' ∨ e = 'E' := by
  intro e head
  cases h <;> cases head
  all_goals assumption

theorem exponentDigitless (h : Exponent es k) : Lexeme.Avoids Char.isDigit es := by
  intro e head
  obtain rfl | rfl := exponentHead h e head <;> rfl

theorem decimalWhole (nonempty : cs ≠ []) (digits : Digits 10 cs) (exponent : Exponent es k) :
    decimal (cs ++ es) = ofDecimal (cs.map hexDigit) k := by
  have all := decimalDigits.mp digits
  have some : cs.isEmpty = false := by simpa using nonempty
  have stop := exponentDigitless exponent
  have read := exponentRead exponent
  have front := Lexeme.takeWhileThen all stop
  have back := Lexeme.dropWhileThen all stop
  cases es with
  | nil =>
      simp only [decimal, front, back, read]
      simp [some]
  | cons e rest => obtain rfl | rfl := exponentHead exponent e rfl <;> simp [decimal, front, back, read, some]

theorem decimalPoint (nonempty : cs ++ ds ≠ []) (before : Digits 10 cs) (behind : Digits 10 ds) (exponent : Exponent es k) :
    decimal (cs ++ '.' :: ds ++ es) = ofDecimal ((cs ++ ds).map hexDigit) (k - ds.length) := by
  have all := decimalDigits.mp before
  have all' := decimalDigits.mp behind
  have some : (cs ++ ds).isEmpty = false := by simpa using nonempty
  have stop := exponentDigitless exponent
  have point : Lexeme.Avoids Char.isDigit ('.' :: (ds ++ es)) := Lexeme.avoidsCons rfl
  rw [List.append_assoc, List.cons_append]
  simp only [decimal, Lexeme.takeWhileThen all point, Lexeme.dropWhileThen all point, Lexeme.takeWhileThen all' stop,
    Lexeme.dropWhileThen all' stop, exponentRead exponent, some]
  rfl

theorem decimalRounds (mantissa : Mantissa cs v) (exponent : Exponent es k) : Rounds (v * 10 ^ k) (decimal (cs ++ es)) := by
  cases mantissa with
  | whole nonempty digits =>
      rw [decimalWhole nonempty digits exponent]
      exact ofDecimalRounds digits k
  | @point cs ds nonempty before behind =>
      rw [decimalPoint nonempty before behind exponent]
      have rounds := ofDecimalRounds (digitsAppend before behind) (k - ds.length)
      have same : (number 10 (cs ++ ds) * 10 ^ (k - ds.length) : ℚ) =
          (number 10 cs + number 10 ds / 10 ^ ds.length) * 10 ^ k := by
        rw [numberAppend, zpow_sub₀ (by norm_num), zpow_natCast]
        push_cast
        field_simp
      rwa [same] at rounds

end Decimals

section Radixes

variable {cs ds es text : List Char} {v : ℚ} {k : ℤ} {base : ℕ} {mark : Char} {raw : String}

theorem radixOf (marked : (mark, base) ∈ radixMarks) : radix? mark = some base ∧ base ≤ 16 := by
  have known : ∀ pair ∈ radixMarks, radix? pair.1 = some pair.2 ∧ pair.2 ≤ 16 := by decide
  exact known _ marked

theorem radixMarked (h : radix? mark = some base) : (mark, base) ∈ radixMarks := by
  unfold radix? at h
  split at h
  · rename_i sixteen
    obtain rfl | rfl := sixteen <;> cases h <;> decide
  · split at h
    · rename_i eight
      obtain rfl | rfl := eight <;> cases h <;> decide
    · split at h
      · rename_i two
        obtain rfl | rfl := two <;> cases h <;> decide
      · cases h

theorem inRadixRead (small : base ≤ 16) (nonempty : ds ≠ []) (digits : Digits base ds) : inRadix base ds =
    if 0x10000000000000000 ≤ number base ds then .nan else .nearest (number base ds) 1 := by
  have hex : ds.all Lexeme.isHexDigit = true :=
    List.all_eq_true.mpr (hexDigits.mp fun d inside => ⟨(digits d inside).1, Nat.lt_of_lt_of_le (digits d inside).2 small⟩)
  have fits : (ds.map hexDigit).all (· < base) = true := by
    simp only [List.all_map, List.all_eq_true, Function.comp_apply, decide_eq_true_eq]
    intro d inside
    rw [hexDigitValue d (digits d inside).1]
    exact (digits d inside).2
  have some : ds.isEmpty = false := by simpa using nonempty
  simp only [inRadix, some, hex, fits, ofDigitsNumber digits, Bool.and_self, Bool.not_true, Bool.or_self, Bool.false_eq_true,
    if_false]

theorem inRadixIll (ill : ds = [] ∨ ∃ d ∈ ds, base ≤ digitValue d) : inRadix base ds = .nan := by
  have refused : (ds.isEmpty || !(ds.all Lexeme.isHexDigit && (ds.map hexDigit).all (· < base))) = true := by
    rw [Bool.or_eq_true]
    refine ill.imp (by rintro rfl; rfl) ?_
    rintro ⟨d, inside, large⟩
    rw [Bool.not_eq_true', Bool.eq_false_iff]
    intro fits
    rw [Bool.and_eq_true, List.all_eq_true, List.all_eq_true] at fits
    have small := fits.2 _ (List.mem_map_of_mem inside)
    rw [hexDigitValue d ((hexDigitIff d).mp (fits.1 d inside)).1, decide_eq_true_eq] at small
    omega
  simp only [inRadix, refused, if_true]

theorem decimalUnprefixed (mantissa : Mantissa cs v) (exponent : Exponent es k) : ¬Prefixed (cs ++ es) base ds := by
  have characters : ∀ c ∈ cs ++ es, c.isDigit = true ∨ c ∈ ['.', 'e', 'E', '+', '-'] := by
    refine List.forall_mem_append.mpr ⟨?_, ?_⟩
    · cases mantissa with
      | whole _ digits => exact fun c inside => .inl (decimalDigits.mp digits c inside)
      | point _ before behind =>
          exact List.forall_mem_append.mpr ⟨fun c inside => .inl (decimalDigits.mp before c inside),
            List.forall_mem_cons.mpr ⟨by simp, fun c inside => .inl (decimalDigits.mp behind c inside)⟩⟩
    · have marked {e : Char} (mark : e = 'e' ∨ e = 'E') : e.isDigit = true ∨ e ∈ ['.', 'e', 'E', '+', '-'] := by
        obtain rfl | rfl := mark <;> simp
      cases exponent with
      | absent => exact List.forall_mem_nil _
      | bare mark _ digits =>
          exact List.forall_mem_cons.mpr ⟨marked mark, fun c inside => .inl (decimalDigits.mp digits c inside)⟩
      | plus mark _ digits | minus mark _ digits =>
          exact List.forall_mem_cons.mpr ⟨marked mark, List.forall_mem_cons.mpr
            ⟨by simp, fun c inside => .inl (decimalDigits.mp digits c inside)⟩⟩
  have apart : ∀ pair ∈ radixMarks, ¬(pair.1.isDigit = true ∨ pair.1 ∈ ['.', 'e', 'E', '+', '-']) := by decide
  rintro ⟨mark, marked, same⟩
  exact apart _ marked (characters mark (same ▸ List.mem_cons_of_mem _ List.mem_cons_self))

end Radixes

section Values

variable {v : ℚ} {base : ℕ} {ds : List Char} {raw : String}

theorem numeralPrefixed (marked : Prefixed (bare raw.toList) base ds) : numeral raw = inRadix base ds := by
  obtain ⟨mark, known, same⟩ := marked
  unfold bare at same
  simp only [numeral, same, (radixOf known).1]

theorem numeralPlain (plain : ∀ base ds, ¬Prefixed (bare raw.toList) base ds) : numeral raw = decimal (bare raw.toList) := by
  unfold numeral
  split
  · rename_i mark ds same
    split
    · rename_i base found
      exact absurd ⟨mark, radixMarked found, same⟩ (plain base ds)
    · exact congrArg decimal same.symm
  · rfl

theorem numeralRounds (amounts : Amounts (bare raw.toList) v) :
    (Wide (bare raw.toList) v → (numeral raw).isNaN = true) ∧
    (¬Wide (bare raw.toList) v → Rounds v (numeral raw)) := by
  generalize text : bare raw.toList = cs at amounts
  cases amounts with
  | decimal mantissa exponent =>
      have plain base ds := @decimalUnprefixed _ ds _ _ _ base mantissa exponent
      rw [numeralPlain (text ▸ plain), text]
      exact ⟨fun ⟨⟨base, ds, marked⟩, _⟩ => absurd marked (plain base ds), fun _ => decimalRounds mantissa exponent⟩
  | @radix mark base ds marked nonempty digits =>
      have known : Prefixed ('0' :: mark :: ds) base ds := ⟨mark, marked, rfl⟩
      rw [numeralPrefixed (text ▸ known), inRadixRead (radixOf marked).2 nonempty digits]
      split
      · rename_i wide
        have large : (2 : ℚ) ^ 64 ≤ number base ds := by exact_mod_cast wide
        exact ⟨fun _ => by decide, fun narrow => absurd ⟨⟨base, ds, known⟩, large⟩ narrow⟩
      · rename_i narrow
        have less : ¬(2 : ℚ) ^ 64 ≤ number base ds := by exact_mod_cast narrow
        refine ⟨fun wide => absurd wide.2 less, fun _ => ?_⟩
        have rounds := Binary64.nearestRounds (number base ds) Nat.one_pos
        rwa [Nat.cast_one, div_one] at rounds

theorem numeralIll (ill : IllPrefixed (bare raw.toList)) : (numeral raw).isNaN = true := by
  obtain ⟨base, ds, marked, refused⟩ := ill
  rw [numeralPrefixed marked, inRadixIll refused]
  decide

end Values

end JsxTree.Literal
