import JsxTree.Source.Span

/-! Errors: a message and a span, the cause, and notes that point to related places. -/
namespace JsxTree

namespace ParseError

inductive Kind where
  | unexpectedToken (found : String)
  | unexpectedEnd
  | mismatchedClosingTag (opening closing : String)
  | invalidToken
  | depthExceeded (limit : Nat)
  | other
  deriving DecidableEq, Repr

def Kind.description : Kind → String
  | unexpectedToken found => "unexpected token: `" ++ found ++ "`"
  | unexpectedEnd => "unexpected end of input"
  | mismatchedClosingTag opening closing =>
      "mismatched closing tag: `</" ++ closing ++ ">` closes `<" ++ opening ++ ">`"
  | invalidToken => "lexer error"
  | depthExceeded limit => "recursion limit of " ++ limit.repr ++ " exceeded"
  | other => "invalid syntax"

inductive Note.Kind where
  | general
  | help
  deriving DecidableEq, Repr

structure Note where
  kind : Note.Kind
  message : String
  span : Option Span
  deriving DecidableEq, Repr

end ParseError

structure ParseError where
  message : String
  span : Span
  kind : ParseError.Kind
  notes : List ParseError.Note
  deriving DecidableEq, Repr

end JsxTree
