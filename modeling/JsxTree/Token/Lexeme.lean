import JsxTree.Text.Alphabetic
import JsxTree.Text.Escaped
import JsxTree.Text.Numeric
import JsxTree.Token.Trivia

/-! The token at the front of a text. Each reader below cuts the text in two, the token's own
text and what follows it, and knows nothing of positions. -/
namespace JsxTree

/-- Expressions are read in script mode; tags, with dashes in their names and strings without
escapes, in JSX mode. -/
inductive Mode where
  | script
  | jsx
  deriving DecidableEq, Repr, Inhabited

structure Lexeme where
  kind : Token.Kind
  raw : List Char
  rest : List Char
  deriving DecidableEq, Repr

namespace Lexeme

def isIdentifierStart (c : Char) : Bool := c == '_' || c == '$' || Text.isAlphabetic c

def isIdentifierPart (c : Char) : Bool :=
  isIdentifierStart c || Text.isNumeric c || c == '\u200C' || c == '\u200D'

def invalid (raw rest : List Char) (message : String) : Lexeme :=
  ⟨.invalid (String.ofList raw) message, raw, rest⟩

section Word

def isWordPart (mode : Mode) (c : Char) : Bool := isIdentifierPart c || (mode == .jsx && c == '-')

def wordKind (mode : Mode) (raw : String) : Token.Kind :=
  if mode = .jsx then .jsxIdentifier raw
  else if raw = "true" then .boolean true
  else if raw = "false" then .boolean false
  else if raw = "null" then .null
  else .identifier raw

def word (mode : Mode) (first : Char) (cs : List Char) : Lexeme :=
  let raw := first :: cs.takeWhile (isWordPart mode)
  ⟨wordKind mode (String.ofList raw), raw, cs.dropWhile (isWordPart mode)⟩

end Word

section Number

def isDecimalPart (c : Char) : Bool := c.isDigit || c == '_'

def isHexDigit (c : Char) : Bool :=
  c.isDigit || ('a' ≤ c && c ≤ 'f') || ('A' ≤ c && c ≤ 'F')

def isRadixMark (c : Char) : Bool :=
  c == 'x' || c == 'X' || c == 'o' || c == 'O' || c == 'b' || c == 'B'

def splitFraction : List Char → List Char × List Char
  | '.' :: cs => ('.' :: cs.takeWhile isDecimalPart, cs.dropWhile isDecimalPart)
  | cs => ([], cs)

def splitSign : List Char → List Char × List Char
  | [] => ([], [])
  | c :: cs => if c == '+' || c == '-' then ([c], cs) else ([], c :: cs)

def splitExponent : List Char → List Char × List Char
  | [] => ([], [])
  | e :: cs =>
      let (sign, digits) := splitSign cs
      if (e == 'e' || e == 'E') && (digits.head?.any Char.isDigit) then
        (e :: sign ++ digits.takeWhile isDecimalPart, digits.dropWhile isDecimalPart)
      else ([], e :: cs)

def splitDecimal (cs : List Char) : List Char × List Char :=
  let (fraction, afterFraction) := splitFraction (cs.dropWhile isDecimalPart)
  let (exponent, rest) := splitExponent afterFraction
  (cs.takeWhile isDecimalPart ++ fraction ++ exponent, rest)

/-- After a radix mark hexadecimal digits are taken whatever the radix. -/
def splitNumber : List Char → List Char × List Char
  | '0' :: mark :: cs =>
      if isRadixMark mark then
        ('0' :: mark :: cs.takeWhile (fun c => isHexDigit c || c == '_'),
          cs.dropWhile (fun c => isHexDigit c || c == '_'))
      else splitDecimal ('0' :: mark :: cs)
  | cs => splitDecimal cs

def number (cs : List Char) : Lexeme :=
  let (raw, rest) := splitNumber cs
  if rest.head?.any isIdentifierStart then
    let whole := raw ++ rest.takeWhile isIdentifierPart
    invalid whole (rest.dropWhile isIdentifierPart)
      ("invalid numeric literal `" ++ String.ofList whole ++ "`")
  else ⟨.numericLiteral (String.ofList raw), raw, rest⟩

end Number

section Quoted

structure Body where
  raw : List Char
  rest : List Char
  closed : Bool
  deriving DecidableEq, Repr

def Body.cons (c : Char) (b : Body) : Body := { b with raw := c :: b.raw }

/-- A backslash takes the next character with it, a carriage return and line feed as one. Other
line breaks of ASCII end the text unclosed. -/
def splitEscaped (quote : Char) : List Char → Body
  | [] => ⟨[], [], false⟩
  | '\\' :: '\r' :: '\n' :: cs => (splitEscaped quote cs).cons '\n' |>.cons '\r' |>.cons '\\'
  | '\\' :: c :: cs => (splitEscaped quote cs).cons c |>.cons '\\'
  | c :: cs =>
      if c == quote then ⟨[c], cs, true⟩
      else if Trivia.endsLine c then ⟨[], c :: cs, false⟩
      else (splitEscaped quote cs).cons c

def splitPlain (quote : Char) : List Char → Body
  | [] => ⟨[], [], false⟩
  | c :: cs => if c == quote then ⟨[c], cs, true⟩ else (splitPlain quote cs).cons c

def quoted (mode : Mode) (quote : Char) (cs : List Char) : Lexeme :=
  let body := if mode = .jsx then splitPlain quote cs else splitEscaped quote cs
  let raw := quote :: body.raw
  if body.closed then ⟨.stringLiteral (String.ofList raw), raw, body.rest⟩
  else invalid raw body.rest "unterminated string literal"

end Quoted

section Punctuator

def scriptPunctuators : List String := [
  ">>>=", "...", "===", "!==", "**=", "<<=", ">>=", ">>>", "&&=", "||=", "??=", "=>", "==", "!=",
  "<=", ">=", "&&", "||", "??", "?.", "++", "--", "+=", "-=", "*=", "/=", "%=", "&=", "|=", "^=",
  "**", "<<", ">>", "\x7b", "\x7d", "(", ")", "[", "]", ";", ",", "<", ">", "+", "-", "*", "/",
  "%", "&", "|", "^", "!", "~", "?", ":", "=", ".", "@", "#"]

def jsxPunctuators : List String := [
  "<", ">", "/", "\x7b", "\x7d", "=", ":", ".", "(", ")", "[", "]", ",", ";", "!", "?", "+", "-",
  "*", "%", "&", "|", "^", "~", "@", "#"]

def punctuators : Mode → List String
  | .script => scriptPunctuators
  | .jsx => jsxPunctuators

def punctuator? (mode : Mode) (cs : List Char) : Option String :=
  (punctuators mode).find? (·.toList.isPrefixOf cs)

def punctuator (mode : Mode) (first : Char) (cs : List Char) : Lexeme :=
  match punctuator? mode (first :: cs) with
  | some p => ⟨.punctuator p, p.toList, (first :: cs).drop p.toList.length⟩
  | none => invalid [first] cs ("unexpected character " ++ Text.describe first)

end Punctuator

def startsNumber : List Char → Bool
  | '.' :: c :: _ => c.isDigit
  | c :: _ => c.isDigit
  | [] => false

/-- The lexeme at the front of a text that has no trivia in front; none at the end. A block
comment that is never closed is a lexeme of its own, and takes the rest. -/
def next? (mode : Mode) : List Char → Option Lexeme
  | [] => none
  | c :: cs => some <|
      if Trivia.opensComment (c :: cs) then invalid (c :: cs) [] "unterminated block comment"
      else if isIdentifierStart c then word mode c cs
      else if mode == .script && startsNumber (c :: cs) then number (c :: cs)
      else if c == '"' || c == '\'' then quoted mode c cs
      else punctuator mode c cs

def endsText (c : Char) : Bool := c == '<' || c == '{'

def jsxText? (cs : List Char) : Option Lexeme :=
  let raw := cs.takeWhile (!endsText ·)
  if raw.isEmpty then none else some ⟨.jsxText (String.ofList raw), raw, cs.dropWhile (!endsText ·)⟩

end Lexeme

end JsxTree
