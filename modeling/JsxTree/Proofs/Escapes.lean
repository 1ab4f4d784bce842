import JsxTree.Proofs.Quoting

/-! What escapes stand for, as a table of patterns: each one says which texts behind a backslash follow it and what they mean.
The first pattern in the table that applies is the one that is read, and takes as much of the text as it can. -/
namespace JsxTree.Literal

section Digits

def digits : List Char := "0123456789abcdefABCDEF".toList

def digitValue (c : Char) : Nat :=
  let place := digits.idxOf c
  if place < 16 then place else place - 6

def Digits (base : Nat) (cs : List Char) : Prop := ∀ c ∈ cs, c ∈ digits ∧ digitValue c < base

def number (base : Nat) (cs : List Char) : Nat := Nat.ofDigits base (cs.reverse.map digitValue)

theorem hexLow {c : Char} (hex : Lexeme.isHexDigit c = true) : c.toNat < 103 := by
  simp only [Lexeme.isHexDigit, Char.isDigit, Bool.or_eq_true, Bool.and_eq_true, decide_eq_true_eq] at hex
  rcases hex with ((⟨-, high⟩ | ⟨-, high⟩) | ⟨-, high⟩)
  all_goals exact Nat.lt_of_le_of_lt high (by decide)

theorem hexDigitIff (c : Char) : Lexeme.isHexDigit c = true ↔ c ∈ digits ∧ digitValue c < 16 := by
  have known : ∀ n < 103, Lexeme.isHexDigit (Char.ofNat n) = true →
      Char.ofNat n ∈ digits ∧ digitValue (Char.ofNat n) < 16 := by decide
  have back : ∀ c ∈ digits, Lexeme.isHexDigit c = true := Text.every (by decide)
  constructor
  · intro hex
    have found := known c.toNat (hexLow hex)
    rw [Char.ofNat_toNat] at found
    exact found hex
  · exact fun digit => back c digit.1

theorem octalDigitIff (c : Char) : Escape.isOctalDigit c = true ↔ c ∈ digits ∧ digitValue c < 8 := by
  have known : ∀ c ∈ marks, Escape.isOctalDigit c = true → c ∈ digits ∧ digitValue c < 8 := Text.every (by decide)
  have back : ∀ c ∈ digits, digitValue c < 8 → Escape.isOctalDigit c = true := Text.every (by decide)
  exact ⟨fun octal => known c (octalMarked octal) octal, fun digit => back c digit.1 digit.2⟩

theorem hexDigits {cs : List Char} : Digits 16 cs ↔ ∀ c ∈ cs, Lexeme.isHexDigit c = true :=
  forall₂_congr fun c _ => (hexDigitIff c).symm

theorem octalDigits {cs : List Char} : Digits 8 cs ↔ ∀ c ∈ cs, Escape.isOctalDigit c = true :=
  forall₂_congr fun c _ => (octalDigitIff c).symm

theorem hexDigitValue : ∀ c ∈ digits, hexDigit c = digitValue c := Text.every (by decide)

theorem ofDigitsNumber {base : Nat} {cs : List Char} (h : Digits base cs) : ofDigits base (cs.map hexDigit) = number base cs := by
  have values : cs.map hexDigit = cs.map digitValue := List.map_congr_left fun c inside => hexDigitValue c (h c inside).1
  rw [values, ofDigits, number, Nat.ofDigits_eq_foldr, List.map_reverse, List.foldr_reverse]
  simp only [Nat.cast_id, Nat.mul_comm, Nat.add_comm]

theorem numberBound {base : Nat} {ds : List Char} (large : 1 < base) (h : Digits base ds) : number base ds < base ^ ds.length := by
  have each : ∀ d ∈ ds.reverse.map digitValue, d < base := by
    intro d inside
    obtain ⟨c, among, rfl⟩ := List.mem_map.mp inside
    exact (h c (List.mem_reverse.mp among)).2
  simpa [number] using Nat.ofDigits_lt_base_pow_length large each

end Digits

section Fronts

variable {p : Char → Bool} {most : Nat} {text cs rest : List Char} {e : Escape}

theorem frontPrefix (front : text <+: cs) (short : text.length ≤ most) (all : ∀ e ∈ text, p e = true) :
    text <+: (cs.take most).takeWhile p := by
  obtain ⟨more, within⟩ := List.prefix_take_iff.mpr ⟨front, short⟩
  rw [← within, List.takeWhile_append_of_pos all]
  exact List.prefix_append _ _

theorem frontOf (p : Char → Bool) (most : Nat) (cs : List Char) :
    (cs.take most).takeWhile p <+: cs ∧ ((cs.take most).takeWhile p).length ≤ most :=
  ⟨(List.takeWhile_prefix p).trans (List.take_prefix most cs),
    (List.takeWhile_prefix p).length_le.trans (List.length_take_le most cs)⟩

theorem bracedRead {ds : List Char} (nonempty : ds ≠ []) (hex : Digits 16 ds) (more : List Char) :
    Escape.braced ('{' :: (ds ++ '}' :: more)) = some (.code (number 16 ds), more) := by
  have stop : Lexeme.Avoids Lexeme.isHexDigit ('}' :: more) := Lexeme.avoidsCons (by decide)
  have all := hexDigits.mp hex
  simp only [Escape.braced, Lexeme.takeWhileThen all stop, Lexeme.dropWhileThen all stop]
  rw [if_neg (by simpa using nonempty), hexValue, ofDigitsNumber hex]

theorem bracedParts (found : Escape.braced cs = some (e, rest)) :
    ∃ ds, ds ≠ [] ∧ Digits 16 ds ∧ cs = '{' :: (ds ++ '}' :: rest) ∧ e = .code (number 16 ds) := by
  unfold Escape.braced at found
  split at found
  · rename_i tail
    have hex : Digits 16 _ := hexDigits.mpr (Lexeme.ofTakeWhile Lexeme.isHexDigit tail)
    dsimp only at found
    split at found
    · rename_i behind
      split at found
      · cases found
      · rename_i nonempty
        cases found
        refine ⟨_, by simpa using nonempty, hex, ?_, by rw [hexValue, ofDigitsNumber hex]⟩
        rw [← behind, List.takeWhile_append_dropWhile]
    · cases found
  · cases found

theorem hexParts (found : Escape.hex most cs = some (e, rest)) : ∃ ds, ds ≠ [] ∧ ds.length ≤ most ∧ Digits 16 ds ∧
    cs = ds ++ rest ∧ e = .code (number 16 ds) ∧ (cs.take most).takeWhile Lexeme.isHexDigit = ds := by
  simp only [Escape.hex] at found
  split at found
  · cases found
  · rename_i nonempty
    cases found
    have hex : Digits 16 _ := hexDigits.mpr (Lexeme.ofTakeWhile Lexeme.isHexDigit (cs.take most))
    obtain ⟨front, short⟩ := frontOf Lexeme.isHexDigit most cs
    refine ⟨_, by simpa using nonempty, short, hex, ?_, by rw [hexValue, ofDigitsNumber hex], rfl⟩
    rw [List.prefix_iff_eq_append.mp front]

theorem hexMissing (failed : Escape.hex most cs = none) : (cs.take most).takeWhile Lexeme.isHexDigit = [] := by
  simp only [Escape.hex] at failed
  split at failed
  · rename_i empty
    exact List.isEmpty_iff.mp empty
  · cases failed

end Fronts

section Octals

variable {cs : List Char} {c : Char}

def octalFront (cs : List Char) : List Char := (cs.take 3).takeWhile Escape.isOctalDigit

def octalLength (c : Char) (cs : List Char) : Nat :=
  let most := (octalFront (c :: cs)).length
  if most = 3 ∧ 3 < digitValue c then 2 else most

def octalTaken (c : Char) (cs : List Char) : List Char := (octalFront (c :: cs)).take (octalLength c cs)

theorem octalFrontCons (octals : Escape.isOctalDigit c = true) :
    octalFront (c :: cs) = c :: (cs.take 2).takeWhile Escape.isOctalDigit := by
  rw [octalFront, List.take_succ_cons, List.takeWhile_cons_of_pos octals]

theorem octalFrontDigits (cs : List Char) : Digits 8 (octalFront cs) :=
  octalDigits.mpr (Lexeme.ofTakeWhile Escape.isOctalDigit (cs.take 3))

theorem octalTakenDigits (c : Char) (cs : List Char) : Digits 8 (octalTaken c cs) :=
  fun d inside => octalFrontDigits _ d (List.mem_of_mem_take inside)

theorem octalTakenLength (c : Char) (cs : List Char) :
    (octalTaken c cs).length = octalLength c cs ∧ octalLength c cs ≤ 3 := by
  obtain ⟨-, few⟩ := frontOf Escape.isOctalDigit 3 (c :: cs)
  rw [octalTaken, List.length_take_of_le, octalLength]
  · refine ⟨rfl, ?_⟩
    split
    · decide
    · exact few
  · rw [octalLength]
    split <;> omega

theorem octalTakenBehind (c : Char) (cs : List Char) : octalTaken c cs ++ (c :: cs).drop (octalLength c cs) = c :: cs := by
  have front : octalTaken c cs <+: c :: cs := (List.take_prefix _ _).trans (frontOf Escape.isOctalDigit 3 (c :: cs)).1
  rw [← (octalTakenLength c cs).1]
  exact List.prefix_iff_eq_append.mp front

theorem largeDigit : ∀ c ∈ digits, digitValue c < 8 → ('3' < c ↔ 3 < digitValue c) := Text.every (by decide)

theorem octalRead (octals : Escape.isOctalDigit c = true) (cs : List Char) :
    Escape.octal (c :: cs) = (.code (number 8 (octalTaken c cs)), (c :: cs).drop (octalLength c cs)) := by
  obtain ⟨digit, value⟩ := (octalDigitIff c).mp octals
  have head : (octalFront (c :: cs)).headD '0' = c := by rw [octalFrontCons octals, List.headD_cons]
  have taken : (if (octalFront (c :: cs)).length = 3 ∧ '3' < (octalFront (c :: cs)).headD '0' then (octalFront (c :: cs)).take 2
      else octalFront (c :: cs)) = octalTaken c cs := by
    simp only [head, octalTaken, octalLength, largeDigit c digit value]
    split <;> simp
  rw [← ofDigitsNumber (octalTakenDigits c cs), ← (octalTakenLength c cs).1, ← taken]
  rfl

end Octals

/-- Which texts behind a backslash follow a pattern, and what they stand for. -/
abbrev Pattern := List Char → Escape → Prop

namespace Pattern

section Table

def braced : Pattern := fun text e =>
  ∃ ds, ds ≠ [] ∧ Digits 16 ds ∧ text = 'u' :: '{' :: (ds ++ ['}']) ∧ e = .code (number 16 ds)

def lettered (letter : Char) (most : Nat) : Pattern := fun text e =>
  ∃ ds, ds ≠ [] ∧ ds.length ≤ most ∧ Digits 16 ds ∧ text = letter :: ds ∧ e = .code (number 16 ds)

def octal (length largest : Nat) : Pattern := fun text e =>
  text.length = length ∧ Digits 8 text ∧ (∀ c ∈ text.head?, digitValue c ≤ largest) ∧ e = .code (number 8 text)

def continuation : Pattern := fun text e =>
  text ∈ [['\r', '\n'], ['\n'], ['\r'], ['\u2028'], ['\u2029']] ∧ e = .text []

def controls : List (Char × Char) :=
  [('n', '\n'), ('f', '\x0c'), ('r', '\r'), ('t', '\t'), ('v', '\x0b'), ('b', '\x08')]

def control : Pattern := fun text e => ∃ pair ∈ controls, text = [pair.1] ∧ e = .text [pair.2]

def itself : Pattern := fun text e => ∃ c, text = [c] ∧ e = .text [c]

def bare : Pattern := fun text e => text = [] ∧ e = .text ['\\']

def digitPatterns : List Pattern := [braced, lettered 'u' 4, lettered 'x' 2]

def octalPatterns : List Pattern := [octal 3 3, octal 2 7, octal 1 7]

def lastPatterns : List Pattern := [continuation, control, itself, bare]

def table : List Pattern := digitPatterns ++ (octalPatterns ++ lastPatterns)

end Table

section Choice

def Takes (pattern : Pattern) (cs : List Char) (e : Escape) (rest : List Char) : Prop :=
  ∃ text, cs = text ++ rest ∧ pattern text e ∧ ∀ other e', pattern other e' → other <+: cs → other.length ≤ text.length

def Misses (pattern : Pattern) (cs : List Char) : Prop := ∀ text e, pattern text e → ¬text <+: cs

inductive First (cs : List Char) (e : Escape) (rest : List Char) : List Pattern → Prop where
  | here {pattern patterns} (takes : pattern.Takes cs e rest) : First cs e rest (pattern :: patterns)
  | later {pattern patterns} (misses : pattern.Misses cs) (more : First cs e rest patterns) :
      First cs e rest (pattern :: patterns)

def Single (pattern : Pattern) : Prop := ∀ text e e', pattern text e → pattern text e' → e = e'

variable {pattern : Pattern} {patterns : List Pattern} {cs rest rest' : List Char} {e e' : Escape}

theorem Takes.unique (single : pattern.Single) (h : pattern.Takes cs e rest) (h' : pattern.Takes cs e' rest') :
    e = e' ∧ rest = rest' := by
  obtain ⟨text, whole, has, longest⟩ := h
  obtain ⟨text', whole', has', longest'⟩ := h'
  have front : text <+: cs := ⟨rest, whole.symm⟩
  have front' : text' <+: cs := ⟨rest', whole'.symm⟩
  obtain rfl : text = text' := (List.prefix_of_prefix_length_le front front' (longest' _ _ has front)).eq_of_length_le
    (longest _ _ has' front')
  exact ⟨single _ _ _ has has', List.append_cancel_left (whole.symm.trans whole')⟩

theorem Takes.hits (h : pattern.Takes cs e rest) : ¬pattern.Misses cs := by
  obtain ⟨text, whole, has, -⟩ := h
  exact fun misses => misses text e has ⟨rest, whole.symm⟩

theorem First.unique (single : ∀ pattern ∈ patterns, pattern.Single) (h : First cs e rest patterns)
    (h' : First cs e' rest' patterns) : e = e' ∧ rest = rest' := by
  induction h with
  | here takes =>
      cases h' with
      | here takes' => exact takes.unique (single _ List.mem_cons_self) takes'
      | later misses' => exact absurd misses' takes.hits
  | later misses _ ih =>
      cases h' with
      | here takes' => exact absurd misses takes'.hits
      | later _ more' => exact ih (fun pattern inside => single pattern (List.mem_cons_of_mem _ inside)) more'

theorem First.past {before : List Pattern} (misses : ∀ pattern ∈ before, pattern.Misses cs) (h : First cs e rest patterns) :
    First cs e rest (before ++ patterns) := by
  induction before with
  | nil => exact h
  | cons pattern before ih =>
      obtain ⟨first, others⟩ := List.forall_mem_cons.mp misses
      exact .later first (ih others)

end Choice

section Single

theorem bracedSingle : braced.Single := by
  rintro _ _ _ ⟨ds, -, -, rfl, rfl⟩ ⟨ds', -, -, same, rfl⟩
  simp only [List.cons.injEq, true_and, List.append_cancel_right_eq] at same
  rw [same]

theorem letteredSingle {letter : Char} {most : Nat} : (lettered letter most).Single := by
  rintro _ _ _ ⟨ds, -, -, -, rfl, rfl⟩ ⟨ds', -, -, -, same, rfl⟩
  rw [List.tail_eq_of_cons_eq same]

theorem octalSingle {length largest : Nat} : (octal length largest).Single := by
  rintro _ _ _ ⟨-, -, -, rfl⟩ ⟨-, -, -, rfl⟩
  rfl

theorem controlSingle : control.Single := by
  rintro _ _ _ ⟨pair, inside, rfl, rfl⟩ ⟨pair', inside', same, rfl⟩
  have known : ∀ p ∈ controls, ∀ q ∈ controls, p.1 = q.1 → p.2 = q.2 := by decide
  rw [known pair inside pair' inside' (List.head_eq_of_cons_eq same)]

theorem tableSingle : ∀ pattern ∈ table, pattern.Single := by
  simp only [table, digitPatterns, octalPatterns, lastPatterns, List.cons_append, List.nil_append, List.forall_mem_cons]
  refine ⟨bracedSingle, letteredSingle, letteredSingle, octalSingle, octalSingle, octalSingle, ?_, controlSingle, ?_, ?_, ?_⟩
  · rintro _ _ _ ⟨-, rfl⟩ ⟨-, rfl⟩
    rfl
  · rintro _ _ _ ⟨c, rfl, rfl⟩ ⟨c', same, rfl⟩
    rw [List.head_eq_of_cons_eq same]
  · rintro _ _ _ ⟨-, rfl⟩ ⟨-, rfl⟩
    rfl
  · exact List.forall_mem_nil _

end Single

section Begins

def Begins (p : Char → Prop) (pattern : Pattern) : Prop := ∀ text e, pattern text e → ∃ c more, text = c :: more ∧ p c

variable {p : Char → Prop} {pattern : Pattern} {c : Char} {cs : List Char}

theorem Begins.missesNothing (h : pattern.Begins p) : pattern.Misses [] := by
  intro text e has front
  obtain ⟨c, more, rfl, -⟩ := h text e has
  cases List.eq_nil_of_prefix_nil front

theorem Begins.misses (h : pattern.Begins p) (other : ¬p c) : pattern.Misses (c :: cs) := by
  intro text e has front
  obtain ⟨c', more, rfl, begins⟩ := h text e has
  rw [(List.cons_prefix_cons.mp front).1] at begins
  exact other begins

theorem bracedBegins : braced.Begins (· = 'u') := by
  rintro _ _ ⟨ds, -, -, rfl, -⟩
  exact ⟨_, _, rfl, rfl⟩

theorem letteredBegins {letter : Char} {most : Nat} : (lettered letter most).Begins (· = letter) := by
  rintro _ _ ⟨ds, -, -, -, rfl, -⟩
  exact ⟨_, _, rfl, rfl⟩

theorem octalBegins {length largest : Nat} : (octal (length + 1) largest).Begins (Escape.isOctalDigit · = true) := by
  rintro text _ ⟨long, octals, -, -⟩
  cases text with
  | nil => cases long
  | cons c more => exact ⟨c, more, rfl, octalDigits.mp octals c List.mem_cons_self⟩

theorem continuationBegins : continuation.Begins (Text.isLineBreak · = true) := by
  rintro text _ ⟨inside, -⟩
  simp only [List.mem_cons, List.not_mem_nil, or_false] at inside
  rcases inside with rfl | rfl | rfl | rfl | rfl <;> exact ⟨_, _, rfl, rfl⟩

theorem controlBegins : control.Begins (· ∈ controls.map Prod.fst) := by
  rintro _ _ ⟨pair, inside, rfl, -⟩
  exact ⟨_, _, rfl, List.mem_map_of_mem inside⟩

theorem itselfBegins : itself.Begins fun _ => True := by
  rintro _ _ ⟨c, rfl, -⟩
  exact ⟨_, _, rfl, trivial⟩

theorem digitsMissed (other : c ≠ 'u') (other' : c ≠ 'x') : ∀ pattern ∈ digitPatterns, pattern.Misses (c :: cs) := by
  simp only [digitPatterns, List.forall_mem_cons]
  exact ⟨bracedBegins.misses other, letteredBegins.misses other, letteredBegins.misses other', List.forall_mem_nil _⟩

theorem octalsMissed (other : Escape.isOctalDigit c = false) : ∀ pattern ∈ octalPatterns, pattern.Misses (c :: cs) := by
  simp only [octalPatterns, List.forall_mem_cons]
  have other : ¬Escape.isOctalDigit c = true := Bool.eq_false_iff.mp other
  exact ⟨octalBegins.misses other, octalBegins.misses other, octalBegins.misses other, List.forall_mem_nil _⟩

end Begins

section Digits

variable {most n largest : Nat} {text cs rest : List Char} {e : Escape} {letter c d : Char} {patterns : List Pattern}

theorem bracedTakes (found : Escape.braced cs = some (e, rest)) : braced.Takes ('u' :: cs) e rest := by
  obtain ⟨ds, nonempty, hex, rfl, rfl⟩ := bracedParts found
  refine ⟨'u' :: '{' :: (ds ++ ['}']), by simp, ⟨ds, nonempty, hex, rfl, rfl⟩, ?_⟩
  rintro _ _ ⟨ds', nonempty', hex', rfl, -⟩ ⟨more, whole⟩
  -- the braces close at the same place, so that the rest of the text is the same
  have same : ds' ++ '}' :: more = ds ++ '}' :: rest := by simpa using whole
  have read := bracedRead nonempty' hex' more
  rw [same, found] at read
  have lengths := congrArg List.length same
  obtain ⟨-, rfl⟩ := Prod.mk.inj (Option.some.inj read)
  simp only [List.length_append, List.length_cons] at lengths ⊢
  omega

theorem bracedMisses (failed : Escape.braced cs = none) : braced.Misses ('u' :: cs) := by
  rintro text e ⟨ds, nonempty, hex, rfl, -⟩ ⟨more, whole⟩
  obtain rfl : '{' :: (ds ++ '}' :: more) = cs := by simpa using whole
  rw [bracedRead nonempty hex more] at failed
  cases failed

theorem letteredTakes (found : Escape.hex most cs = some (e, rest)) : (lettered letter most).Takes (letter :: cs) e rest := by
  obtain ⟨ds, nonempty, short, hex, whole, rfl, front⟩ := hexParts found
  refine ⟨letter :: ds, congrArg _ whole, ⟨ds, nonempty, short, hex, rfl, rfl⟩, ?_⟩
  rintro _ _ ⟨ds', -, short', hex', rfl, -⟩ within
  have inside := frontPrefix (List.cons_prefix_cons.mp within).2 short' (hexDigits.mp hex')
  rw [front] at inside
  exact Nat.succ_le_succ inside.length_le

theorem letteredMisses (failed : Escape.hex most cs = none) : (lettered letter most).Misses (letter :: cs) := by
  rintro _ _ ⟨ds, nonempty, short, hex, rfl, -⟩ within
  have inside := frontPrefix (List.cons_prefix_cons.mp within).2 short (hexDigits.mp hex)
  rw [hexMissing failed] at inside
  exact nonempty (List.eq_nil_of_prefix_nil inside)

theorem prefixHead (front : text <+: c :: cs) (first : d ∈ text.head?) : d = c := by
  obtain ⟨more, whole⟩ := front
  cases text with
  | nil => cases first
  | cons e text =>
      obtain rfl : e = c := List.head_eq_of_cons_eq whole
      exact (Option.some.inj first).symm

theorem octalTakes (taken : octalLength c cs = n) (small : digitValue c ≤ largest) :
    (octal n largest).Takes (c :: cs) (.code (number 8 (octalTaken c cs))) ((c :: cs).drop n) := by
  subst taken
  have whole := octalTakenBehind c cs
  have length := (octalTakenLength c cs).1
  refine ⟨octalTaken c cs, whole.symm, ⟨length, octalTakenDigits c cs, ?_, rfl⟩, ?_⟩
  · intro d first
    rw [prefixHead ⟨_, whole⟩ first]
    exact small
  · rintro other e' ⟨long, -⟩ -
    rw [long, length]

theorem octalMisses (short : n + 1 ≤ 3) (less : (octalFront (c :: cs)).length < n + 1 ∨ largest < digitValue c) :
    (octal (n + 1) largest).Misses (c :: cs) := by
  rintro text e ⟨long, octals, small, -⟩ front
  have within : text <+: octalFront (c :: cs) := frontPrefix front (long.trans_le short) (octalDigits.mp octals)
  rcases less with less | large
  · have fits := within.length_le
    omega
  · cases text with
    | nil => cases long
    | cons d text =>
        have least := small d rfl
        rw [prefixHead front rfl] at least
        omega

theorem octalFirst (octals : Escape.isOctalDigit c = true) :
    First (c :: cs) (Escape.octal (c :: cs)).1 (Escape.octal (c :: cs)).2 (octalPatterns ++ patterns) := by
  obtain ⟨-, value⟩ := (octalDigitIff c).mp octals
  have value := Nat.le_of_lt_succ value
  have nonempty : 0 < (octalFront (c :: cs)).length := by simp [octalFrontCons octals]
  have few : (octalFront (c :: cs)).length ≤ 3 := (frontOf Escape.isOctalDigit 3 (c :: cs)).2
  have lengths : (octalLength c cs = 3 ∧ digitValue c ≤ 3) ∨
      (octalLength c cs = 2 ∧ ((octalFront (c :: cs)).length < 3 ∨ 3 < digitValue c)) ∨
      (octalLength c cs = 1 ∧ (octalFront (c :: cs)).length < 2) := by
    simp only [octalLength]
    split <;> omega
  rw [octalRead octals]
  rcases lengths with ⟨three, small⟩ | ⟨two, third⟩ | ⟨one, second⟩
  · rw [three]
    exact .here (octalTakes three small)
  · rw [two]
    exact .later (octalMisses (by decide) third) (.here (octalTakes two value))
  · rw [one]
    exact .later (octalMisses (by decide) (.inl (Nat.lt_succ_of_lt second))) (.later (octalMisses (by decide) (.inl second))
      (.here (octalTakes one value)))

end Digits

section Reading

variable {c : Char} {cs rest : List Char} {e : Escape}

theorem pastOctals (undigit : Escape.isOctalDigit c = false) (h : First (c :: cs) e rest lastPatterns) :
    First (c :: cs) e rest (octalPatterns ++ lastPatterns) := .past (octalsMissed undigit) h

theorem lastFirst (other : c ≠ 'u') (other' : c ≠ 'x') (undigit : Escape.isOctalDigit c = false)
    (h : First (c :: cs) e rest lastPatterns) : First (c :: cs) e rest table :=
  .past (digitsMissed other other') (pastOctals undigit h)

theorem takesOne {pattern : Pattern} (has : pattern [c] e) (short : ∀ text e, pattern text e → text.length ≤ 1) :
    pattern.Takes (c :: cs) e cs :=
  ⟨[c], rfl, has, fun other e' has' _ => short other e' has'⟩

theorem bareFirst : First [] (.text ['\\']) [] table := by
  have missed : ∀ pattern ∈ digitPatterns ++ (octalPatterns ++ [continuation, control, itself]), pattern.Misses [] := by
    simp only [digitPatterns, octalPatterns, List.cons_append, List.nil_append, List.forall_mem_cons]
    exact ⟨bracedBegins.missesNothing, letteredBegins.missesNothing, letteredBegins.missesNothing, octalBegins.missesNothing,
      octalBegins.missesNothing, octalBegins.missesNothing, continuationBegins.missesNothing, controlBegins.missesNothing,
      itselfBegins.missesNothing, List.forall_mem_nil _⟩
  have last : bare.Takes [] (.text ['\\']) [] :=
    ⟨[], rfl, ⟨rfl, rfl⟩, fun _ _ has _ => Nat.le_of_eq (congrArg List.length has.1)⟩
  have past : First [] (.text ['\\']) [] (digitPatterns ++ (octalPatterns ++ [continuation, control, itself]) ++ [bare]) :=
    .past missed (.here last)
  exact past

theorem itselfFirst (unbroken : Text.isLineBreak c = false) (plain : c ∉ controls.map Prod.fst) :
    First (c :: cs) (.text [c]) cs lastPatterns := by
  refine .later (continuationBegins.misses (Bool.eq_false_iff.mp unbroken)) (.later (controlBegins.misses plain) (.here ?_))
  apply takesOne ⟨c, rfl, rfl⟩
  rintro _ _ ⟨_, rfl, -⟩
  exact Nat.le_refl 1

theorem controlFirst {c d : Char} (known : (c, d) ∈ controls) : First (c :: cs) (.text [d]) cs table := by
  have others : ∀ pair ∈ controls, pair.1 ≠ 'u' ∧ pair.1 ≠ 'x' ∧ Escape.isOctalDigit pair.1 = false ∧
      Text.isLineBreak pair.1 = false := by decide
  obtain ⟨other, other', undigit, unbroken⟩ := others _ known
  refine lastFirst other other' undigit (.later (continuationBegins.misses (Bool.eq_false_iff.mp unbroken)) (.here ?_))
  apply takesOne ⟨_, known, rfl, rfl⟩
  rintro _ _ ⟨_, -, rfl, -⟩
  exact Nat.le_refl 1

theorem feedsFirst : First ('\r' :: '\n' :: cs) (.text []) cs table := by
  refine lastFirst (by decide) (by decide) (by decide) (.here ⟨['\r', '\n'], rfl, ⟨by simp, rfl⟩, ?_⟩)
  rintro other e' ⟨inside, -⟩ -
  simp only [List.mem_cons, List.not_mem_nil, or_false] at inside
  rcases inside with rfl | rfl | rfl | rfl | rfl <;> decide

theorem brokenFirst (broken : Text.isLineBreak c = true) (alone : ∀ more, c = '\r' → cs ≠ '\n' :: more) :
    First (c :: cs) (.text []) cs table := by
  have breaks : c = '\n' ∨ c = '\r' ∨ c = '\u2028' ∨ c = '\u2029' := by simpa [Text.isLineBreak, or_assoc] using broken
  have others : c ≠ 'u' ∧ c ≠ 'x' ∧ Escape.isOctalDigit c = false := by
    rcases breaks with rfl | rfl | rfl | rfl <;> decide
  obtain ⟨other, other', undigit⟩ := others
  refine lastFirst other other' undigit (.here ⟨[c], rfl, ⟨by simpa using breaks, rfl⟩, ?_⟩)
  rintro text e' ⟨inside, -⟩ ⟨more, whole⟩
  simp only [List.mem_cons, List.not_mem_nil, or_false] at inside
  rcases inside with rfl | rfl | rfl | rfl | rfl
  · exact absurd (List.tail_eq_of_cons_eq whole).symm (alone more (List.head_eq_of_cons_eq whole).symm)
  all_goals exact Nat.le_refl 1

end Reading

theorem splitFirst (cs : List Char) : First cs (Escape.split cs).1 (Escape.split cs).2 table := by
  fun_cases Escape.split cs with
  | case1 => exact bareFirst
  | case2 cs =>
      cases braced : Escape.braced cs with
      | some found => exact .here (bracedTakes braced)
      | none =>
          refine .later (bracedMisses braced) ?_
          cases hex : Escape.hex 4 cs with
          | some found => exact .here (letteredTakes hex)
          | none =>
              exact .later (letteredMisses hex) (.later (letteredBegins.misses (by decide)) (pastOctals (by decide)
                (itselfFirst (by decide) (by decide))))
  | case3 cs =>
      refine .later (bracedBegins.misses (by decide)) (.later (letteredBegins.misses (by decide)) ?_)
      cases hex : Escape.hex 2 cs with
      | some found => exact .here (letteredTakes hex)
      | none => exact .later (letteredMisses hex) (pastOctals (by decide) (itselfFirst (by decide) (by decide)))
  | case4 cs => exact controlFirst (by decide)
  | case5 cs => exact controlFirst (by decide)
  | case6 cs => exact controlFirst (by decide)
  | case7 cs => exact controlFirst (by decide)
  | case8 cs => exact controlFirst (by decide)
  | case9 cs => exact controlFirst (by decide)
  | case10 cs => exact feedsFirst
  | case11 c cs other other' _ _ _ _ _ _ _ octals => exact .past (digitsMissed other other') (octalFirst octals)
  | case12 c cs _ _ _ _ _ _ _ _ alone _ broken => exact brokenFirst broken alone
  | case13 c cs other other' n f r t v b _ undigit unbroken =>
      have plain : c ∉ controls.map Prod.fst := by
        simp only [controls, List.map_cons, List.map_nil, List.mem_cons, List.not_mem_nil, or_false]
        rintro (same | same | same | same | same | same)
        exacts [n same, f same, r same, t same, v same, b same]
      exact lastFirst other other' (Bool.eq_false_iff.mpr undigit) (itselfFirst (Bool.eq_false_iff.mpr unbroken) plain)

theorem firstIff {cs rest : List Char} {e : Escape} : First cs e rest table ↔ Escape.split cs = (e, rest) := by
  constructor
  · intro first
    obtain ⟨same, same'⟩ := (splitFirst cs).unique tableSingle first
    exact Prod.ext same same'
  · intro read
    have first := splitFirst cs
    rwa [read] at first

end Pattern

section Characters

def High (n : Nat) : Prop := 0xD800 ≤ n ∧ n ≤ 0xDBFF

def Low (n : Nat) : Prop := 0xDC00 ≤ n ∧ n ≤ 0xDFFF

def Denotes (n : Nat) (c : Char) : Prop :=
  if n < 0xD800 ∨ (0xDFFF < n ∧ n ≤ 0x10FFFF) then c.toNat = n else c = '\uFFFD'

theorem validIff {n : Nat} : n.isValidChar ↔ n < 0xD800 ∨ (0xDFFF < n ∧ n ≤ 0x10FFFF) := by
  simp only [Nat.isValidChar]
  omega

theorem charAtValue {n : Nat} (valid : n.isValidChar) : (charAt n).toNat = n := by
  rw [charAt, dif_pos valid]
  rfl

theorem denotesIff {n : Nat} {c : Char} : Denotes n c ↔ charAt n = c := by
  simp only [Denotes, ← validIff]
  split
  · rename_i valid
    exact ⟨fun same => Char.toNat_inj.mp ((charAtValue valid).trans same.symm), fun same => same ▸ charAtValue valid⟩
  · rename_i missing
    rw [charAt, dif_neg missing]
    exact eq_comm

theorem highIff {n : Nat} : isHighSurrogate n = true ↔ High n := by
  simp only [isHighSurrogate, High, Bool.and_eq_true, decide_eq_true_eq]
  omega

theorem lowIff {n : Nat} : isLowSurrogate n = true ↔ Low n := by
  simp only [isLowSurrogate, Low, Bool.and_eq_true, decide_eq_true_eq]
  omega

theorem surrogateMissing {n : Nat} (upper : High n) : charAt n = replacement := by
  have missing : ¬n.isValidChar := by
    simp only [High] at upper
    rw [validIff]
    omega
  rw [charAt, dif_neg missing]

theorem joinedValid {high low : Nat} (upper : High high) (lower : Low low) :
    (0x10000 + (high - 0xD800) * 0x400 + (low - 0xDC00)).isValidChar := by
  simp only [High, Low] at upper lower
  rw [validIff]
  omega

end Characters

section Decoding

open Pattern

/-- The escapes of a text are read from left to right, without overlap. A high surrogate joins a low one that is escaped
right behind it. -/
inductive Decodes : List Char → List Char → Prop where
  | done : Decodes [] []
  | plain {c cs value} (plain : c ≠ '\\') (more : Decodes cs value) : Decodes (c :: cs) (c :: value)
  | text {cs text rest value} (first : First cs (.text text) rest table) (more : Decodes rest value) :
      Decodes ('\\' :: cs) (text ++ value)
  | pair {cs high behind low rest c value} (first : First cs (.code high) ('\\' :: behind) table) (upper : High high)
      (second : First behind (.code low) rest table) (lower : Low low)
      (joined : c.toNat = 0x10000 + (high - 0xD800) * 0x400 + (low - 0xDC00)) (more : Decodes rest value) :
      Decodes ('\\' :: cs) (c :: value)
  | code {cs n rest c value} (first : First cs (.code n) rest table)
      (alone : High n → ∀ behind low rest', rest = '\\' :: behind → First behind (.code low) rest' table → ¬Low low)
      (denotes : Denotes n c) (more : Decodes rest value) : Decodes ('\\' :: cs) (c :: value)

variable {cs rest rest' : List Char} {n high low : Nat}

theorem lowSurrogateIff : lowSurrogate? rest = some (low, rest') ↔
    ∃ behind, rest = '\\' :: behind ∧ First behind (.code low) rest' table ∧ Low low := by
  simp only [firstIff, ← lowIff]
  constructor
  · intro found
    unfold lowSurrogate? at found
    split at found
    · split at found
      · rename_i read
        split at found
        · rename_i lower
          cases found
          exact ⟨_, rfl, read, lower⟩
        · cases found
      · cases found
    · cases found
  · rintro ⟨behind, rfl, read, lower⟩
    simp only [lowSurrogate?, read, lower, if_true]

theorem lowSurrogateNone : lowSurrogate? rest = none ↔
    ∀ behind low rest', rest = '\\' :: behind → First behind (.code low) rest' table → ¬Low low := by
  simp only [Option.eq_none_iff_forall_ne_some, Prod.forall, ne_eq, lowSurrogateIff, not_exists, not_and]
  exact ⟨fun h behind low rest' => h low rest' behind, fun h low rest' behind => h behind low rest'⟩

theorem decodePair (split : Escape.split cs = (.code high, rest)) (upper : isHighSurrogate high = true)
    (found : lowSurrogate? rest = some (low, rest')) :
    decode ('\\' :: cs) = charAt (0x10000 + (high - 0xD800) * 0x400 + (low - 0xDC00)) :: decode rest' := by
  simp only [decodeSlash, split, upper, found, if_true]

theorem decodeAlone (split : Escape.split cs = (.code n, rest)) (alone : isHighSurrogate n = true → lowSurrogate? rest = none) :
    decode ('\\' :: cs) = charAt n :: decode rest := by
  by_cases upper : isHighSurrogate n = true
  · simp only [decodeSlash, split, upper, alone upper, surrogateMissing (highIff.mp upper), if_true]
  · exact decodeCode split (Bool.eq_false_iff.mpr upper)

theorem decodeDecodes (cs : List Char) : Decodes cs (decode cs) := by
  fun_induction decode cs with
  | case1 => exact .done
  | case2 c cs plain ih => exact .plain plain ih
  | case3 c cs slash text rest split ih =>
      rw [not_not.mp slash]
      exact .text (firstIff.mpr split) ih
  | case4 c cs slash high rest split upper low rest' found ih =>
      rw [not_not.mp slash]
      obtain ⟨behind, rfl, second, lower⟩ := lowSurrogateIff.mp found
      exact .pair (firstIff.mpr split) (highIff.mp upper) second lower (charAtValue (joinedValid (highIff.mp upper) lower)) ih
  | case5 c cs slash n rest split upper missing ih =>
      rw [not_not.mp slash, ← surrogateMissing (highIff.mp upper)]
      exact .code (firstIff.mpr split) (fun _ => lowSurrogateNone.mp missing) (denotesIff.mpr rfl) ih
  | case6 c cs slash n rest split single ih =>
      rw [not_not.mp slash]
      exact .code (firstIff.mpr split) (fun upper => absurd (highIff.mpr upper) single) (denotesIff.mpr rfl) ih

theorem Decodes.decoded {value : List Char} (h : Decodes cs value) : decode cs = value := by
  induction h with
  | done => rw [decode]
  | plain plain _ ih => rw [decodePlain plain, ih]
  | text first _ ih => rw [decodeText (firstIff.mp first), ih]
  | pair first upper second lower joined _ ih =>
      rw [decodePair (firstIff.mp first) (highIff.mpr upper) (lowSurrogateIff.mpr ⟨_, rfl, second, lower⟩), ih]
      rw [Char.toNat_inj.mp ((charAtValue (joinedValid upper lower)).trans joined.symm)]
  | code first alone denotes _ ih =>
      rw [decodeAlone (firstIff.mp first) (fun upper => lowSurrogateNone.mpr (alone (highIff.mp upper))), ih,
        denotesIff.mp denotes]

theorem decodesIff {value : List Char} : Decodes cs value ↔ decode cs = value :=
  ⟨Decodes.decoded, fun same => same ▸ decodeDecodes cs⟩

end Decoding

end JsxTree.Literal
