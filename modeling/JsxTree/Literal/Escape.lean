import JsxTree.Token.Lexeme

/-! Escapes in string literals: `unquote` gives the value of a literal, `quote` a literal for a
value. -/
namespace JsxTree.Literal

inductive Escape where
  | code (n : Nat)
  | text (cs : List Char)
  deriving DecidableEq, Repr

def hexDigit (c : Char) : Nat :=
  if c.isDigit then c.toNat - '0'.toNat
  else if 'a' ≤ c then c.toNat - 'a'.toNat + 10 else c.toNat - 'A'.toNat + 10

def ofDigits (base : Nat) (digits : List Nat) : Nat := digits.foldl (fun n d => n * base + d) 0

def hexValue (cs : List Char) : Nat := ofDigits 16 (cs.map hexDigit)

namespace Escape

def braced : List Char → Option (Escape × List Char)
  | '{' :: cs =>
      let digits := cs.takeWhile Lexeme.isHexDigit
      match cs.dropWhile Lexeme.isHexDigit with
      | '}' :: rest => if digits.isEmpty then none else some (.code (hexValue digits), rest)
      | _ => none
  | _ => none

def hex (most : Nat) (cs : List Char) : Option (Escape × List Char) :=
  let digits := (cs.take most).takeWhile Lexeme.isHexDigit
  if digits.isEmpty then none else some (.code (hexValue digits), cs.drop digits.length)

def isOctalDigit (c : Char) : Bool := '0' ≤ c && c ≤ '7'

def octal (cs : List Char) : Escape × List Char :=
  let digits := (cs.take 3).takeWhile isOctalDigit
  let taken := if digits.length = 3 ∧ '3' < digits.headD '0' then digits.take 2 else digits
  (.code (ofDigits 8 (taken.map hexDigit)), cs.drop taken.length)

/-- The escape that follows a backslash, and the text after it. A backslash with nothing to escape
stands for itself, as does any character without a meaning of its own. -/
def split : List Char → Escape × List Char
  | [] => (.text ['\\'], [])
  | 'u' :: cs => ((braced cs).orElse fun _ => hex 4 cs).getD (.text ['u'], cs)
  | 'x' :: cs => (hex 2 cs).getD (.text ['x'], cs)
  | 'n' :: cs => (.text ['\n'], cs)
  | 'f' :: cs => (.text ['\x0c'], cs)
  | 'r' :: cs => (.text ['\r'], cs)
  | 't' :: cs => (.text ['\t'], cs)
  | 'v' :: cs => (.text ['\x0b'], cs)
  | 'b' :: cs => (.text ['\x08'], cs)
  | '\r' :: '\n' :: cs => (.text [], cs)
  | c :: cs =>
      if isOctalDigit c then octal (c :: cs)
      else if Text.isLineBreak c then (.text [], cs)
      else (.text [c], cs)

theorem bracedShorter {cs rest : List Char} {e : Escape} (h : braced cs = some (e, rest)) :
    rest.length ≤ cs.length := by
  unfold braced at h
  split at h
  · rename_i tail
    have shorter := (List.dropWhile_suffix Lexeme.isHexDigit (l := tail)).length_le
    dsimp only at h
    split at h
    · rename_i r found
      rw [found] at shorter
      split at h
      · cases h
      · cases h
        simp only [List.length_cons] at shorter ⊢
        omega
    · cases h
  · cases h

theorem hexShorter {most : Nat} {cs rest : List Char} {e : Escape}
    (h : hex most cs = some (e, rest)) : rest.length ≤ cs.length := by
  unfold hex at h
  dsimp only at h
  split at h
  · cases h
  · cases h; simp

theorem splitShorter (cs : List Char) : (split cs).2.length ≤ cs.length := by
  unfold split
  split
  · simp
  · rename_i tail
    cases hb : braced tail with
    | some found => have := bracedShorter hb; simp; omega
    | none =>
        cases hh : hex 4 tail with
        | some found => have := hexShorter hh; simp; omega
        | none => simp
  · rename_i tail
    cases hh : hex 2 tail with
    | some found => have := hexShorter hh; simp; omega
    | none => simp
  iterate 6 simp
  · simp only [List.length_cons]; omega
  · split
    · simp [octal]
    · split <;> simp

end Escape

def isHighSurrogate (n : Nat) : Bool := 0xD800 ≤ n && n < 0xDC00

def isLowSurrogate (n : Nat) : Bool := 0xDC00 ≤ n && n < 0xE000

def replacement : Char := '\uFFFD'

def charAt (n : Nat) : Char := if h : n.isValidChar then Char.ofNatAux n h else replacement

def lowSurrogate? : List Char → Option (Nat × List Char)
  | '\\' :: cs =>
      match Escape.split cs with
      | (.code low, rest) => if isLowSurrogate low then some (low, rest) else none
      | _ => none
  | _ => none

theorem lowSurrogateShorter {cs rest : List Char} {low : Nat}
    (h : lowSurrogate? cs = some (low, rest)) : rest.length < cs.length := by
  unfold lowSurrogate? at h
  split at h
  · rename_i tail
    have shorter := Escape.splitShorter tail
    split at h
    · rename_i found
      rw [found] at shorter
      split at h
      · cases h; simp only [List.length_cons] at shorter ⊢; omega
      · cases h
    · cases h
  · cases h

/-- Escapes are read left to right. Two escaped surrogates, high and low, are one character; a
surrogate alone is none. -/
def decode : List Char → List Char
  | [] => []
  | c :: cs =>
      if c ≠ '\\' then c :: decode cs
      else match _escape : Escape.split cs with
        | (.text text, rest) => text ++ decode rest
        | (.code n, rest) =>
            if isHighSurrogate n then
              match _pair : lowSurrogate? rest with
              | some (low, rest') => charAt (0x10000 + (n - 0xD800) * 0x400 + (low - 0xDC00)) :: decode rest'
              | none => replacement :: decode rest
            else charAt n :: decode rest
termination_by cs => cs.length
decreasing_by
  all_goals have shorter := Escape.splitShorter cs
  all_goals simp only [List.length_cons]
  · omega
  · rw [_escape] at shorter; simp only at shorter; omega
  · rw [_escape] at shorter; have := lowSurrogateShorter _pair; simp only at shorter; omega
  · rw [_escape] at shorter; simp only at shorter; omega
  · rw [_escape] at shorter; simp only at shorter; omega

def unquote (raw : String) : String := String.ofList (decode (raw.toList.drop 1).dropLast)

def encodeChar (quote : Char) (c : Char) : List Char :=
  if c = '\\' then ['\\', '\\']
  else if c = '\n' then ['\\', 'n']
  else if c = '\r' then ['\\', 'r']
  else if c = '\u2028' then ['\\', 'u', '2', '0', '2', '8']
  else if c = '\u2029' then ['\\', 'u', '2', '0', '2', '9']
  else if c = quote then ['\\', c]
  else [c]

def quote (value : String) (quote : Char) : String :=
  String.ofList (quote :: value.toList.flatMap (encodeChar quote) ++ [quote])

end JsxTree.Literal
