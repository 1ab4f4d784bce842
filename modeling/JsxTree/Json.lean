import JsxTree.Number.Shortest
import JsxTree.Text.Escaped

/-! JSON values and their two exact texts, on one line and indented. Objects keep the order of
their fields. -/
namespace JsxTree

inductive Json where
  | null
  | boolean (b : Bool)
  | natural (n : Nat)
  | number (x : Binary64)
  | string (s : String)
  | array (xs : List Json)
  | object (fields : List (String × Json))
  deriving Inhabited

namespace Json

def zeros (n : Nat) : String := String.ofList (List.replicate n '0')

def isPlain (exponent : Int) : Bool := -5 ≤ exponent && exponent < 16

def decimalText (d : Decimal) : String :=
  let digits := Nat.toDigits 10 d.coefficient
  let point := digits.length + d.exponent
  let exponent := point - 1
  if isPlain exponent then
    if point ≤ 0 then "0." ++ zeros (-point).toNat ++ String.ofList digits
    else if 0 ≤ d.exponent then String.ofList digits ++ zeros d.exponent.toNat ++ ".0"
    else String.ofList (digits.take point.toNat) ++ "." ++ String.ofList (digits.drop point.toNat)
  else
    let tail := if digits.length = 1 then "" else "." ++ String.ofList (digits.drop 1)
    let sign := if 0 ≤ exponent then "+" else "-"
    String.ofList (digits.take 1) ++ tail ++ "e" ++ sign ++ exponent.natAbs.repr

def numberText (x : Binary64) : String :=
  if x.isFinite then
    (if x.negative then "-" else "") ++ (if x.isZero then "0.0" else decimalText x.shortest)
  else "null"

def escapedChar (c : Char) : String :=
  match c with
  | '"' => "\\\""
  | '\\' => "\\\\"
  | '\x08' => "\\b"
  | '\x0c' => "\\f"
  | '\n' => "\\n"
  | '\r' => "\\r"
  | '\t' => "\\t"
  | c =>
      if c.toNat < 0x20 then "\\u00" ++ (if c.toNat < 0x10 then "0" else "") ++ Text.lowerHex c.toNat
      else String.singleton c

def stringText (s : String) : String := "\"" ++ String.join (s.toList.map escapedChar) ++ "\""

mutual

def compactThen (rest : List String) : Json → List String
  | null => "null" :: rest
  | boolean b => (if b then "true" else "false") :: rest
  | natural n => n.repr :: rest
  | number x => numberText x :: rest
  | string s => stringText s :: rest
  | array xs => "[" :: compactItems ("]" :: rest) xs
  | object fields => "\x7b" :: compactFields ("\x7d" :: rest) fields

def compactItems (rest : List String) : List Json → List String
  | [] => rest
  | [x] => compactThen rest x
  | x :: xs => compactThen ("," :: compactItems rest xs) x

def compactFields (rest : List String) : List (String × Json) → List String
  | [] => rest
  | [(key, x)] => stringText key :: ":" :: compactThen rest x
  | (key, x) :: fields => stringText key :: ":" :: compactThen ("," :: compactFields rest fields) x

end

def compact (j : Json) : String := String.join (j.compactThen [])

def newLine (depth : Nat) : String := "\n".pushn ' ' (2 * depth)

mutual

def prettyThen (depth : Nat) (rest : List String) : Json → List String
  | null => "null" :: rest
  | boolean b => (if b then "true" else "false") :: rest
  | natural n => n.repr :: rest
  | number x => numberText x :: rest
  | string s => stringText s :: rest
  | array [] => "[]" :: rest
  | array xs => "[" :: prettyItems (depth + 1) (newLine depth :: "]" :: rest) xs
  | object [] => "\x7b\x7d" :: rest
  | object fields => "\x7b" :: prettyFields (depth + 1) (newLine depth :: "\x7d" :: rest) fields

def prettyItems (depth : Nat) (rest : List String) : List Json → List String
  | [] => rest
  | [x] => newLine depth :: prettyThen depth rest x
  | x :: xs => newLine depth :: prettyThen depth ("," :: prettyItems depth rest xs) x

def prettyFields (depth : Nat) (rest : List String) : List (String × Json) → List String
  | [] => rest
  | [(key, x)] => newLine depth :: stringText key :: ": " :: prettyThen depth rest x
  | (key, x) :: fields =>
      newLine depth :: stringText key :: ": " ::
        prettyThen depth ("," :: prettyFields depth rest fields) x

end

def pretty (j : Json) : String := String.join (j.prettyThen 0 [])

mutual

theorem compactThenRest (rest : List String) (j : Json) :
    j.compactThen rest = j.compactThen [] ++ rest := by
  match j with
  | null | boolean _ | natural _ | number _ | string _ => simp only [compactThen, List.cons_append, List.nil_append]
  | array xs => rw [compactThen, compactThen, compactItemsRest ("]" :: rest), compactItemsRest ["]"]]; simp
  | object fields =>
      rw [compactThen, compactThen, compactFieldsRest ("\x7d" :: rest), compactFieldsRest ["\x7d"]]; simp

theorem compactItemsRest (rest : List String) (xs : List Json) :
    compactItems rest xs = compactItems [] xs ++ rest := by
  match xs with
  | [] => simp [compactItems]
  | [x] => rw [compactItems, compactItems, compactThenRest]
  | x :: y :: xs =>
      have step (rest : List String) : compactItems rest (x :: y :: xs) =
          compactThen ("," :: compactItems rest (y :: xs)) x := by rw [compactItems]; simp
      rw [step, step, compactThenRest, compactThenRest ("," :: compactItems [] (y :: xs)),
        compactItemsRest rest (y :: xs)]
      simp

theorem compactFieldsRest (rest : List String) (fields : List (String × Json)) :
    compactFields rest fields = compactFields [] fields ++ rest := by
  match fields with
  | [] => simp [compactFields]
  | [(key, x)] => rw [compactFields, compactFields, compactThenRest]; simp
  | (key, x) :: field :: fields =>
      have step (rest : List String) : compactFields rest ((key, x) :: field :: fields) =
          stringText key :: ":" :: compactThen ("," :: compactFields rest (field :: fields)) x := by
        rw [compactFields]; simp
      rw [step, step, compactThenRest, compactThenRest ("," :: compactFields [] (field :: fields)),
        compactFieldsRest rest (field :: fields)]
      simp

end

end Json

end JsxTree
