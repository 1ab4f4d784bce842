import JsxTree.Literal.Escape
import JsxTree.Number.Binary64

/-! The value of a numeric literal: the number nearest to what its digits denote. -/
namespace JsxTree.Literal

/-- The number nearest to the decimal with these digits, times a power of ten. Exponents far
outside the range of numbers are settled without computing the power. -/
def ofDecimal (digits : List Nat) (exponent : Int) : Binary64 :=
  let coefficient := ofDigits 10 digits
  if coefficient = 0 then .zero
  else if 400 ≤ exponent then .infinity
  else if exponent + digits.length ≤ -400 then .zero
  else .nearest (coefficient * Nat.pow 10 exponent.toNat) (Nat.pow 10 (-exponent).toNat)

def exponent? : List Char → Option Int
  | [] => some 0
  | mark :: cs =>
      let (sign, digits) := Lexeme.splitSign cs
      let value : Int := ofDigits 10 (digits.map hexDigit)
      if (mark == 'e' || mark == 'E') && !digits.isEmpty && digits.all Char.isDigit then
        some (if sign == ['-'] then -value else value)
      else none

def decimal (cs : List Char) : Binary64 :=
  let whole := cs.takeWhile Char.isDigit
  let (fraction, rest) := match cs.dropWhile Char.isDigit with
    | '.' :: rest => (rest.takeWhile Char.isDigit, rest.dropWhile Char.isDigit)
    | rest => ([], rest)
  let digits := whole ++ fraction
  match exponent? rest with
  | none => .nan
  | some e => if digits.isEmpty then .nan else ofDecimal (digits.map hexDigit) (e - fraction.length)

def radix? (mark : Char) : Option Nat :=
  if mark = 'x' ∨ mark = 'X' then some 16
  else if mark = 'o' ∨ mark = 'O' then some 8
  else if mark = 'b' ∨ mark = 'B' then some 2
  else none

def inRadix (radix : Nat) (cs : List Char) : Binary64 :=
  let digits := cs.map hexDigit
  if cs.isEmpty || !(cs.all Lexeme.isHexDigit && digits.all (· < radix)) then .nan
  else if 0x10000000000000000 ≤ ofDigits radix digits then .nan
  else .nearest (ofDigits radix digits) 1

def numeral (raw : String) : Binary64 :=
  match raw.toList.filter (· ≠ '_') with
  | '0' :: mark :: digits =>
      match radix? mark with
      | some radix => inRadix radix digits
      | none => decimal ('0' :: mark :: digits)
  | cs => decimal cs

end JsxTree.Literal
