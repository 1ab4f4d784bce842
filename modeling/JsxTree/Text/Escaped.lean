import JsxTree.Text.Blank

/-! Hexadecimal numerals, and characters made visible in messages. -/
namespace JsxTree.Text

def lowerHex (n : Nat) : String := String.ofList (Nat.toDigits 16 n)

def upperHex (n : Nat) : String :=
  let digits := (Nat.toDigits 16 n).map Char.toUpper
  String.ofList (List.replicate (4 - digits.length) '0' ++ digits)

def bracedEscape (c : Char) : String := "\\u\x7b" ++ lowerHex c.toNat ++ "\x7d"

def escaped (c : Char) : String :=
  match c with
  | '\t' => "\\t"
  | '\r' => "\\r"
  | '\n' => "\\n"
  | '\'' => "\\'"
  | '"' => "\\\""
  | '\\' => "\\\\"
  | c => if 0x20 ≤ c.toNat ∧ c.toNat < 0x7F then String.singleton c else bracedEscape c

def describe (c : Char) : String :=
  if isControl c || (isWhiteSpace c && c != ' ') then
    "`" ++ escaped c ++ "` (U+" ++ upperHex c.toNat ++ ")"
  else "`" ++ String.singleton c ++ "`"

end JsxTree.Text
