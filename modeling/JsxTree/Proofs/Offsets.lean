import JsxTree.Proofs.Escapes
import JsxTree.Text.Bytes

/-! The decoder by byte offsets: texts are tested byte by byte, and cut at offsets into their UTF-8 form. A cut is missing
where its offset is past the end of the text or inside a character; none is. -/
namespace JsxTree

namespace Text

def bytes (cs : List Char) : List UInt8 := cs.flatMap String.utf8EncodeChar

def offset? (c : Char) (cs : List Char) : Option Nat :=
  if c ∈ cs then some (byteLength (cs.takeWhile (· != c))) else none

end Text

namespace Literal

def word (n : Nat) : Nat := min n 0xFFFFFFFF

def Escape.word : Escape → Escape
  | .text cs => .text cs
  | .code n => .code (Literal.word n)

namespace Offsets

def isHexByte (b : UInt8) : Bool := (48 ≤ b && b ≤ 57) || (97 ≤ b && b ≤ 102) || (65 ≤ b && b ≤ 70)

def isOctalByte (b : UInt8) : Bool := 48 ≤ b && b ≤ 55

def word? (ds : List Char) : Option Nat := if hexValue ds < 0x100000000 then some (hexValue ds) else none

def braced (text : List Char) : Option (Option (Nat × Nat)) :=
  match text with
  | '{' :: body =>
      match Text.offset? '}' body with
      | none => some none
      | some close => do
          let ds ← Text.takeBytes close body
          if ds.isEmpty || !(Text.bytes ds).all isHexByte then return none
          else return some ((word? ds).getD 0xFFFFFFFF, close + 2)
  | _ => some none

def hex (most : Nat) (text : List Char) : Option (Option (Nat × Nat)) :=
  let length := (((Text.bytes text).take most).takeWhile isHexByte).length
  if length = 0 then some none
  else do
    let ds ← Text.takeBytes length text
    return (word? ds).map (·, length)

def octal (text : List Char) : Nat × Nat :=
  match (((Text.bytes text).take 3).takeWhile isOctalByte).map fun b => (b - 48).toNat with
  | [a, b, c] => if a ≤ 3 then (a * 64 + b * 8 + c, 3) else (a * 8 + b, 2)
  | [a, b] => (a * 8 + b, 2)
  | [a] => (a, 1)
  | _ => (0, 0)

def lettered (letter : Char) : Option (Nat × Nat) → Escape × Nat
  | some (n, length) => (.code n, 1 + length)
  | none => (.text [letter], 1)

def unlettered (c : Char) (after : List Char) : Option (Escape × Nat) :=
  if Escape.isOctalDigit c then some (.code (octal after).1, (octal after).2)
  else if Text.isLineBreak c then some (.text [], c.utf8Size)
  else do return (.text (← Text.takeBytes c.utf8Size after), c.utf8Size)

def escape (after : List Char) : Option (Escape × Nat) :=
  match after.head? with
  | none => some (.text ['\\'], 0)
  | some 'u' => do
      match ← braced (← Text.dropBytes 1 after) with
      | some found => return lettered 'u' (some found)
      | none => return lettered 'u' (← hex 4 (← Text.dropBytes 1 after))
  | some 'x' => do return lettered 'x' (← hex 2 (← Text.dropBytes 1 after))
  | some 'n' => some (.text ['\n'], 1)
  | some 'f' => some (.text ['\x0c'], 1)
  | some 'r' => some (.text ['\r'], 1)
  | some 't' => some (.text ['\t'], 1)
  | some 'v' => some (.text ['\x0b'], 1)
  | some 'b' => some (.text ['\x08'], 1)
  | some '\r' => do
      let behind ← Text.dropBytes 1 after
      return (.text [], if behind.head? = some '\n' then 2 else 1)
  | some c => unlettered c after

def lowSurrogate (text : List Char) : Option (Option (Nat × Nat)) :=
  match text with
  | '\\' :: after => do
      match ← escape after with
      | (.code low, consumed) => return if isLowSurrogate low then some (low, consumed + 1) else none
      | _ => return none
  | _ => some none

def round (text : List Char) : Option (Option (List Char × List Char)) :=
  match Text.offset? '\\' text with
  | none => some none
  | some backslash => do
      let front ← Text.takeBytes backslash text
      let (e, consumed) ← escape (← Text.dropBytes (backslash + 1) text)
      let rest ← Text.dropBytes (backslash + 1 + consumed) text
      match e with
      | .text own => return some (front ++ own, rest)
      | .code n =>
          if isHighSurrogate n then
            match ← lowSurrogate rest with
            | some (low, length) =>
                return some (front ++ [charAt (0x10000 + (n - 0xD800) * 0x400 + (low - 0xDC00))], ← Text.dropBytes length rest)
            | none => return some (front ++ [replacement], rest)
          else return some (front ++ [charAt n], rest)

section Bytes

variable {c : Char} {cs front back : List Char} {n : Nat}

theorem bytesLength (cs : List Char) : (Text.bytes cs).length = Text.byteLength cs := by
  induction cs with
  | nil => rfl
  | cons c cs ih =>
      rw [Text.bytes, List.flatMap_cons, List.length_append, String.length_utf8EncodeChar, Text.byteLength, ← ih, Text.bytes]

theorem offsetOf (outside : c ∉ front) (back : List Char) :
    Text.offset? c (front ++ c :: back) = some (Text.byteLength front) := by
  have others : ∀ d ∈ front, (d != c) = true := by
    intro d inside
    simpa using fun same : d = c => outside (same ▸ inside)
  have stop : Lexeme.Avoids (· != c) (c :: back) := Lexeme.avoidsCons (by simp)
  rw [Text.offset?, if_pos (by simp), Lexeme.takeWhileThen others stop]

theorem offsetParts (found : Text.offset? c cs = some n) :
    ∃ front back, cs = front ++ c :: back ∧ c ∉ front ∧ n = Text.byteLength front := by
  by_cases inside : c ∈ cs
  · obtain ⟨front, back, rfl, outside⟩ := List.eq_append_cons_of_mem inside
    rw [offsetOf outside] at found
    exact ⟨front, back, rfl, outside, (Option.some.inj found).symm⟩
  · rw [Text.offset?, if_neg inside] at found
    cases found

/-- The first byte of a character tells as much about it as the character itself, and is all there is of a character that
passes. -/
def Mirrors (test : UInt8 → Bool) (p : Char → Bool) : Prop :=
  ∀ c, ∃ b more, String.utf8EncodeChar c = b :: more ∧ test b = p c ∧ (p c = true → more = [])

theorem mirrors {test : UInt8 → Bool} {p : Char → Bool} (low : ∀ n < 128, test (UInt8.ofNat n) = p (Char.ofNat n))
    (high : ∀ n < 256, 128 ≤ n → test (UInt8.ofNat n) = false) (passes : ∀ c, p c = true → c.toNat < 128) :
    Mirrors test p := by
  intro c
  have fails : ∀ n, n < 256 → 128 ≤ n → 128 ≤ c.toNat → test (UInt8.ofNat n) = p c := by
    intro n small large outside
    rw [high n small large, Bool.eq_false_iff.mpr fun pass => Nat.not_lt_of_le outside (passes c pass)]
  have never : 128 ≤ c.toNat → ∀ more : List UInt8, p c = true → more = [] :=
    fun outside _ pass => absurd (passes c pass) (Nat.not_lt_of_le outside)
  have code : c.val.toNat = c.toNat := rfl
  simp only [String.utf8EncodeChar, code]
  split
  · rename_i ascii
    have same := low c.toNat (Nat.lt_succ_of_le ascii)
    rw [Char.ofNat_toNat] at same
    exact ⟨_, [], rfl, same, fun _ => rfl⟩
  · rename_i outside
    have outside := Nat.lt_of_not_le outside
    split
    · exact ⟨_, _, rfl, fails _ (by omega) (by omega) outside, never outside _⟩
    · split
      · exact ⟨_, _, rfl, fails _ (by omega) (by omega) outside, never outside _⟩
      · exact ⟨_, _, rfl, fails _ (by omega) (by omega) outside, never outside _⟩

set_option maxRecDepth 4000 in
theorem hexMirrors : Mirrors isHexByte Lexeme.isHexDigit :=
  mirrors (by decide) (by decide) fun _ hex => Nat.lt_trans (hexLow hex) (by decide)

set_option maxRecDepth 4000 in
theorem octalMirrors : Mirrors isOctalByte Escape.isOctalDigit := by
  have known : ∀ c ∈ marks, c.toNat < 128 := Text.every (by decide)
  exact mirrors (by decide) (by decide) fun c octal => known c (octalMarked octal)

variable {test : UInt8 → Bool} {p : Char → Bool}

theorem Mirrors.all (h : Mirrors test p) (cs : List Char) : (Text.bytes cs).all test = cs.all p := by
  induction cs with
  | nil => rfl
  | cons c cs ih =>
      obtain ⟨b, more, encoded, same, alone⟩ := h c
      rw [Text.bytes, List.flatMap_cons, encoded, List.all_append, List.all_cons, List.all_cons, same]
      cases pass : p c with
      | true => rw [alone pass, ← ih]; simp [Text.bytes]
      | false => simp

theorem Mirrors.fronts (h : Mirrors test p) (most : Nat) (cs : List Char) :
    ((Text.bytes cs).take most).takeWhile test = Text.bytes ((cs.take most).takeWhile p) := by
  induction cs generalizing most with
  | nil => simp [Text.bytes]
  | cons c cs ih =>
      cases most with
      | zero => simp [Text.bytes]
      | succ most =>
          obtain ⟨b, more, encoded, same, alone⟩ := h c
          cases pass : p c with
          | true =>
              obtain rfl := alone pass
              have front := ih most
              simp only [Text.bytes] at front ⊢
              simp [encoded, same, pass, front]
          | false => simp [Text.bytes, encoded, same, pass]

end Bytes

open Pattern

section Reading

variable {cs rest : List Char} {e : Escape} {most n : Nat}

theorem wordDigits {ds : List Char} (hex : Digits 16 ds) : (word? ds).getD 0xFFFFFFFF = word (number 16 ds) := by
  rw [word?, hexValue, ofDigitsNumber hex, word]
  split
  · rw [Option.getD_some]
    omega
  · rw [Option.getD_none]
    omega

theorem wordFits {ds : List Char} (hex : Digits 16 ds) (short : ds.length ≤ 4) :
    word? ds = some (number 16 ds) ∧ word (number 16 ds) = number 16 ds := by
  have small : number 16 ds < 16 ^ 4 :=
    Nat.lt_of_lt_of_le (numberBound (by decide) hex) (Nat.pow_le_pow_right (by decide) short)
  rw [word?, hexValue, ofDigitsNumber hex, word, if_pos (by omega)]
  exact ⟨rfl, by omega⟩

theorem bracedFound (found : Escape.braced cs = some (e, rest)) :
    ∃ n taken, e = .code n ∧ cs = taken ++ rest ∧ braced cs = some (some (word n, Text.byteLength taken)) := by
  obtain ⟨ds, nonempty, hex, rfl, rfl⟩ := bracedParts found
  have outside : '}' ∉ ds := fun inside => absurd (hexDigits.mp hex _ inside) (by decide)
  have all : (Text.bytes ds).all isHexByte = true := by rw [hexMirrors.all, List.all_eq_true.mpr (hexDigits.mp hex)]
  refine ⟨number 16 ds, '{' :: (ds ++ ['}']), rfl, by simp, ?_⟩
  have length : Text.byteLength ('{' :: (ds ++ ['}'])) = Text.byteLength ds + 2 := by
    rw [Text.byteLength, Text.byteLengthAppend]
    simp only [Text.byteLength]
    have := show '{'.utf8Size = 1 ∧ '}'.utf8Size = 1 by decide
    omega
  have accepted : ¬(ds.isEmpty || !(Text.bytes ds).all isHexByte) = true := by
    rw [all, Bool.not_true, Bool.or_false, List.isEmpty_iff]
    exact nonempty
  simp only [braced, offsetOf outside, Text.takeBytesAppend, Option.bind_eq_bind, Option.bind_some, if_neg accepted,
    wordDigits hex, length]
  rfl

theorem bracedFailed (failed : Escape.braced cs = none) : braced cs = some none := by
  unfold braced
  split
  · rename_i body
    cases found : Text.offset? '}' body with
    | none => rfl
    | some close =>
      obtain ⟨front, back, rfl, -, rfl⟩ := offsetParts found
      have refused : (front.isEmpty || !(Text.bytes front).all isHexByte) = true := by
        by_contra accepted
        simp only [hexMirrors.all, Bool.or_eq_true, Bool.not_eq_true', not_or, Bool.not_eq_false, List.isEmpty_iff] at accepted
        rw [bracedRead accepted.1 (hexDigits.mpr (List.all_eq_true.mp accepted.2)) _] at failed
        cases failed
      simp only [Text.takeBytesAppend, Option.bind_eq_bind, Option.bind_some, if_pos refused]
      rfl
  · rfl

theorem hexFound (short : most ≤ 4) (found : Escape.hex most cs = some (e, rest)) :
    ∃ n taken, e = .code n ∧ cs = taken ++ rest ∧ hex most cs = some (some (word n, Text.byteLength taken)) := by
  obtain ⟨ds, nonempty, few, digits, rfl, rfl, front⟩ := hexParts found
  obtain ⟨fits, same⟩ := wordFits digits (few.trans short)
  have length := congrArg List.length (hexMirrors.fronts most (ds ++ rest))
  rw [bytesLength, front] at length
  have counted : Text.byteLength ds ≠ 0 := by
    cases ds with
    | nil => exact absurd rfl nonempty
    | cons d ds =>
        obtain ⟨n, whole, -⟩ := Text.byteLengthSucc d ds
        rw [whole]
        exact Nat.succ_ne_zero n
  refine ⟨number 16 ds, ds, rfl, rfl, ?_⟩
  simp only [hex, length, if_neg counted, Text.takeBytesAppend, Option.bind_eq_bind, Option.bind_some, fits, same]
  rfl

theorem hexFailed (failed : Escape.hex most cs = none) : hex most cs = some none := by
  have length := congrArg List.length (hexMirrors.fronts most cs)
  rw [hexMissing failed] at length
  simp only [hex, length]
  rfl

theorem letterDropped {c : Char} (single : c.utf8Size = 1) (cs : List Char) : Text.dropBytes 1 (c :: cs) = some cs := by
  simp [Text.dropBytes, single]

theorem letteredRead (letter : Char) (single : letter.utf8Size = 1) (short : most ≤ 4) (cs : List Char) :
    ∃ found taken, hex most cs = some found ∧ letter :: cs = taken ++ ((Escape.hex most cs).getD (.text [letter], cs)).2 ∧
      lettered letter found = (((Escape.hex most cs).getD (.text [letter], cs)).1.word, Text.byteLength taken) := by
  cases read : Escape.hex most cs with
  | none => exact ⟨none, [letter], hexFailed read, rfl, by simp [lettered, Escape.word, Text.byteLength, single]⟩
  | some found =>
      obtain ⟨e, rest⟩ := found
      obtain ⟨n, taken, rfl, rfl, digits⟩ := hexFound short read
      exact ⟨_, letter :: taken, digits, rfl, by simp [lettered, Escape.word, Text.byteLength, single]⟩

theorem octalBytes {ds : List Char} (h : Digits 8 ds) :
    ((Text.bytes ds).map fun b => (b - 48).toNat) = ds.map digitValue ∧ Text.byteLength ds = ds.length := by
  have known : ∀ c ∈ digits, digitValue c < 8 →
      ((String.utf8EncodeChar c).map fun b => (b - 48).toNat) = [digitValue c] ∧ c.utf8Size = 1 :=
    Text.every (by decide)
  induction ds with
  | nil => exact ⟨rfl, rfl⟩
  | cons c ds ih =>
      obtain ⟨own, others⟩ := List.forall_mem_cons.mp h
      obtain ⟨value, single⟩ := known c own.1 own.2
      obtain ⟨values, length⟩ := ih others
      constructor
      · rw [Text.bytes, List.flatMap_cons, List.map_append, value, ← Text.bytes, values]
        rfl
      · rw [Text.byteLength, single, length, List.length_cons, Nat.add_comm]

theorem octalSame {c : Char} (octals : Escape.isOctalDigit c = true) (cs : List Char) :
    octal (c :: cs) = (number 8 (octalTaken c cs), octalLength c cs) := by
  have values := (octalBytes (octalFrontDigits (c :: cs))).1
  have few := (frontOf Escape.isOctalDigit 2 cs).2
  have bytes : ((Text.bytes (c :: cs)).take 3).takeWhile isOctalByte = Text.bytes (octalFront (c :: cs)) :=
    octalMirrors.fronts 3 (c :: cs)
  simp only [octal, bytes, values, octalTaken, octalLength]
  rw [octalFrontCons octals]
  -- one digit, two or three
  generalize (cs.take 2).takeWhile Escape.isOctalDigit = ds at few ⊢
  rcases ds with _ | ⟨a, _ | ⟨b, _ | ⟨_, _⟩⟩⟩
  · simp [number]
  · simp [number, Nat.ofDigits]
    omega
  · by_cases large : 3 < digitValue c
    · simp [number, Nat.ofDigits, large, Nat.not_le_of_lt large]
      omega
    · simp [number, Nat.ofDigits, large, Nat.le_of_not_lt large]
      omega
  · simp only [List.length_cons] at few
    omega

theorem octalCuts {c : Char} (octals : Escape.isOctalDigit c = true) (cs : List Char) :
    ∃ taken, c :: cs = taken ++ (Escape.octal (c :: cs)).2 ∧
      (.code (octal (c :: cs)).1, (octal (c :: cs)).2) = ((Escape.octal (c :: cs)).1.word, Text.byteLength taken) := by
  obtain ⟨length, few⟩ := octalTakenLength c cs
  have inside := octalTakenDigits c cs
  have small : number 8 (octalTaken c cs) < 8 ^ 3 :=
    Nat.lt_of_lt_of_le (numberBound (by decide) inside) (Nat.pow_le_pow_right (by decide) (length.trans_le few))
  have fits : word (number 8 (octalTaken c cs)) = number 8 (octalTaken c cs) := by
    rw [word]
    omega
  rw [octalSame octals, octalRead octals]
  refine ⟨octalTaken c cs, (octalTakenBehind c cs).symm, ?_⟩
  rw [Escape.word, fits, (octalBytes inside).2, length]

theorem escapeUnlettered {c : Char} (u : c ≠ 'u') (x : c ≠ 'x') (n : c ≠ 'n') (f : c ≠ 'f') (r : c ≠ 'r') (t : c ≠ 't')
    (v : c ≠ 'v') (b : c ≠ 'b') (back : c ≠ '\r') (cs : List Char) : escape (c :: cs) = unlettered c (c :: cs) := by
  simp only [escape, List.head?_cons]

theorem escapeReturn {cs : List Char} (alone : ∀ more, cs ≠ '\n' :: more) : escape ('\r' :: cs) = some (.text [], 1) := by
  have head : cs.head? ≠ some '\n' := by
    cases cs with
    | nil => simp
    | cons c more => exact fun same => alone more (by rw [Option.some.inj same])
  simp only [escape, List.head?_cons, letterDropped (show '\r'.utf8Size = 1 by decide), Option.bind_eq_bind, Option.bind_some,
    if_neg head]
  rfl

theorem escapeRead (cs : List Char) : ∃ taken, cs = taken ++ (Escape.split cs).2 ∧
    escape cs = some ((Escape.split cs).1.word, Text.byteLength taken) := by
  -- Case by case as the escape is split: the count is that of the characters taken.
  fun_cases Escape.split cs with
  | case1 => exact ⟨[], rfl, rfl⟩
  | case2 cs =>
      have dropped : Text.dropBytes 1 ('u' :: cs) = some cs := letterDropped (by decide) cs
      cases read : Escape.braced cs with
      | some found =>
          obtain ⟨e, rest⟩ := found
          obtain ⟨n, taken, rfl, rfl, braces⟩ := bracedFound read
          refine ⟨'u' :: taken, rfl, ?_⟩
          simp only [escape, List.head?_cons, dropped, Option.bind_eq_bind, Option.bind_some, braces]
          rfl
      | none =>
          obtain ⟨found, taken, digits, whole, same⟩ := letteredRead 'u' (by decide) (Nat.le_refl 4) cs
          refine ⟨taken, whole, ?_⟩
          simp only [escape, List.head?_cons, dropped, Option.bind_eq_bind, Option.bind_some, bracedFailed read, digits, same]
          rfl
  | case3 cs =>
      obtain ⟨found, taken, digits, whole, same⟩ := letteredRead 'x' (by decide) (Nat.le_add_right 2 2) cs
      refine ⟨taken, whole, ?_⟩
      simp only [escape, List.head?_cons, letterDropped (show 'x'.utf8Size = 1 by decide), Option.bind_eq_bind,
        Option.bind_some, digits, same]
      rfl
  | case4 cs => exact ⟨['n'], rfl, rfl⟩
  | case5 cs => exact ⟨['f'], rfl, rfl⟩
  | case6 cs => exact ⟨['r'], rfl, rfl⟩
  | case7 cs => exact ⟨['t'], rfl, rfl⟩
  | case8 cs => exact ⟨['v'], rfl, rfl⟩
  | case9 cs => exact ⟨['b'], rfl, rfl⟩
  | case10 cs => exact ⟨['\r', '\n'], rfl, rfl⟩
  | case11 c cs u x n f r t v b _ octals =>
      have solid : c ≠ '\r' := by
        rintro rfl
        cases octals
      obtain ⟨taken, whole, same⟩ := octalCuts octals cs
      refine ⟨taken, whole, ?_⟩
      rw [escapeUnlettered u x n f r t v b solid, unlettered, if_pos octals, same]
  | case12 c cs u x n f r t v b alone undigit broken =>
      refine ⟨[c], rfl, ?_⟩
      by_cases back : c = '\r'
      · subst back
        exact escapeReturn fun more => alone more rfl
      · rw [escapeUnlettered u x n f r t v b back, unlettered, if_neg undigit, if_pos broken]
        rfl
  | case13 c cs u x n f r t v b alone undigit unbroken =>
      have solid : c ≠ '\r' := by
        rintro rfl
        exact unbroken rfl
      have own : Text.takeBytes c.utf8Size (c :: cs) = some [c] := Text.takeBytesAppend [c] cs
      refine ⟨[c], rfl, ?_⟩
      rw [escapeUnlettered u x n f r t v b solid, unlettered, if_neg undigit, if_neg unbroken, own]
      rfl

theorem wordHigh (n : Nat) : isHighSurrogate (word n) = isHighSurrogate n := by
  rw [Bool.eq_iff_iff, highIff, highIff, High, High, word]
  omega

theorem wordLow (n : Nat) : isLowSurrogate (word n) = isLowSurrogate n := by
  rw [Bool.eq_iff_iff, lowIff, lowIff, Low, Low, word]
  omega

theorem wordLowSame (lower : Low n) : word n = n := by
  rw [Low] at lower
  rw [word]
  omega

theorem wordHighSame (upper : High n) : word n = n := by
  rw [High] at upper
  rw [word]
  omega

theorem wordChar (n : Nat) : charAt (word n) = charAt n := by
  by_cases valid : n.isValidChar
  · have same : word n = n := by
      rw [validIff] at valid
      rw [word]
      omega
    rw [same]
  · have missing : ¬(word n).isValidChar := by
      rw [validIff] at valid ⊢
      rw [word]
      omega
    rw [charAt, charAt, dif_neg valid, dif_neg missing]

theorem lowFound {low : Nat} (found : lowSurrogate? cs = some (low, rest)) :
    ∃ taken, cs = taken ++ rest ∧ lowSurrogate cs = some (some (low, Text.byteLength taken)) := by
  obtain ⟨behind, rfl, first, lower⟩ := lowSurrogateIff.mp found
  obtain ⟨taken, whole, read⟩ := escapeRead behind
  rw [firstIff.mp first] at whole read
  refine ⟨'\\' :: taken, congrArg _ whole, ?_⟩
  have length : Text.byteLength ('\\' :: taken) = Text.byteLength taken + 1 := Nat.add_comm _ _
  simp only [lowSurrogate, read, Escape.word, wordLowSame lower, lowIff.mpr lower, Option.bind_eq_bind, Option.bind_some,
    if_true, length]
  rfl

theorem lowMissing (missing : lowSurrogate? cs = none) : lowSurrogate cs = some none := by
  unfold lowSurrogate
  split
  · rename_i after
    obtain ⟨taken, -, read⟩ := escapeRead after
    rw [read]
    simp only [lowSurrogate?] at missing
    cases split : Escape.split after with
    | mk e rest =>
        cases e with
        | text text => rfl
        | code n =>
            simp only [split] at missing
            split at missing
            · cases missing
            · rename_i other
              simp only [Escape.word, Option.bind_eq_bind, Option.bind_some, wordLow, if_neg other]
              rfl
  · rfl

theorem decodeFront {front : List Char} (outside : '\\' ∉ front) (cs : List Char) :
    decode (front ++ cs) = front ++ decode cs := by
  induction front with
  | nil => rfl
  | cons c front ih =>
      have plain : c ≠ '\\' := fun same => outside (same ▸ List.mem_cons_self)
      rw [List.cons_append, decodePlain plain, ih (List.not_mem_of_not_mem_cons outside), List.cons_append]

theorem roundRead (cs : List Char) : (round cs = some none ∧ decode cs = cs) ∨
    ∃ out rest, round cs = some (some (out, rest)) ∧ decode cs = out ++ decode rest ∧ rest.length < cs.length := by
  by_cases inside : '\\' ∈ cs
  case neg =>
    have whole := decodeFront inside []
    rw [List.append_nil, decode, List.append_nil] at whole
    rw [round, Text.offset?, if_neg inside]
    exact .inl ⟨rfl, whole⟩
  refine .inr ?_
  -- One round takes the text in front of the first backslash and the escape behind it, or two that make a pair.
  obtain ⟨front, after, rfl, outside⟩ := List.eq_append_cons_of_mem inside
  obtain ⟨taken, whole, read⟩ := escapeRead after
  have behind : Text.dropBytes (Text.byteLength front + 1) (front ++ '\\' :: after) = some after := by
    have cut := Text.dropBytesAppend (front ++ ['\\']) after
    rwa [Text.byteLengthAppend, List.append_assoc] at cut
  have later : Text.dropBytes (Text.byteLength front + 1 + Text.byteLength taken) (front ++ '\\' :: after) =
      some (Escape.split after).2 := by
    have cut := Text.dropBytesAppend (front ++ '\\' :: taken) (Escape.split after).2
    rwa [Text.byteLengthAppend, Text.byteLength, ← Nat.add_assoc, List.append_assoc, List.cons_append, ← whole] at cut
  have shorter : (Escape.split after).2.length < (front ++ '\\' :: after).length := by
    have shorter := Escape.splitShorter after
    rw [List.length_append, List.length_cons]
    omega
  simp only [round, offsetOf outside, Text.takeBytesAppend, behind, read, later, Option.bind_eq_bind, Option.bind_some]
  rw [decodeFront outside]
  cases split : Escape.split after with
  | mk e rest =>
      rw [split] at shorter
      cases e with
      | text text => exact ⟨front ++ text, rest, rfl, by rw [decodeText split, List.append_assoc], shorter⟩
      | code n =>
          simp only [Escape.word, wordHigh, wordChar]
          split
          · rename_i upper
            cases pair : lowSurrogate? rest with
            | none =>
                refine ⟨front ++ [replacement], rest, ?_, ?_, shorter⟩
                · rw [lowMissing pair]
                  rfl
                · rw [decodeAlone split fun _ => pair, surrogateMissing (highIff.mp upper), List.append_assoc]
                  rfl
            | some found =>
                obtain ⟨low, rest'⟩ := found
                obtain ⟨taken', whole', read'⟩ := lowFound pair
                refine ⟨front ++ [charAt (0x10000 + (n - 0xD800) * 0x400 + (low - 0xDC00))], rest', ?_, ?_, ?_⟩
                · rw [read', whole']
                  simp only [Option.bind_some, Text.dropBytesAppend, wordHighSame (highIff.mp upper)]
                  rfl
                · rw [decodePair split upper pair, List.append_assoc]
                  rfl
                · rw [whole', List.length_append] at shorter
                  exact Nat.lt_of_le_of_lt (Nat.le_add_left _ _) shorter
          · rename_i single
            refine ⟨front ++ [charAt n], rest, rfl, ?_, shorter⟩
            rw [decodeAlone split fun upper => absurd upper single, List.append_assoc]
            rfl

theorem roundShorter {out : List Char} (read : round cs = some (some (out, rest))) : rest.length < cs.length := by
  rcases roundRead cs with ⟨done, -⟩ | ⟨out', rest', read', -, shorter⟩
  · rw [done] at read
    cases read
  · rw [read'] at read
    cases read
    exact shorter

end Reading

def decode (text : List Char) : Option (List Char) :=
  match _read : round text with
  | none => none
  | some none => some text
  | some (some (out, rest)) => (decode rest).map (out ++ ·)
termination_by text.length
decreasing_by exact roundShorter _read

def unquote (raw : String) : Option String := (decode (raw.toList.drop 1).dropLast).map String.ofList

theorem decodeSame (cs : List Char) : decode cs = some (Literal.decode cs) := by
  fun_induction decode cs with
  | case1 cs failed =>
      rcases roundRead cs with ⟨done, -⟩ | ⟨out, rest, read, -⟩
      · rw [done] at failed
        cases failed
      · rw [read] at failed
        cases failed
  | case2 cs last =>
      rcases roundRead cs with ⟨-, decoded⟩ | ⟨out, rest, read, -⟩
      · rw [decoded]
      · rw [read] at last
        cases last
  | case3 cs out rest read ih =>
      rcases roundRead cs with ⟨done, -⟩ | ⟨out', rest', read', decoded, -⟩
      · rw [done] at read
        cases read
      · rw [read'] at read
        cases read
        rw [ih, decoded]
        rfl

theorem unquoteSame (raw : String) : unquote raw = some (Literal.unquote raw) := by
  rw [unquote, decodeSame]
  rfl

end Offsets

/-- The decoder does what the table says. A text has one reading, which is found by offsets as well: no cut fails. -/
theorem unquoteTabled (first last : Char) (inner : List Char) :
    (∀ value, Decodes inner value ↔ unquote (String.ofList (first :: inner ++ [last])) = String.ofList value) ∧
      Offsets.unquote (String.ofList (first :: inner ++ [last])) =
        some (unquote (String.ofList (first :: inner ++ [last]))) := by
  refine ⟨fun value => ?_, Offsets.unquoteSame _⟩
  rw [decodesIff, unquote, String.toList_ofList, List.cons_append, List.drop_succ_cons, List.drop_zero, List.dropLast_concat,
    String.ofList_inj]

end Literal

end JsxTree
