import JsxTree.Source.Span

/-! Tokens and the comments before them. A token keeps its source text: literals are decoded
later, by whoever builds a node from them. -/
namespace JsxTree

inductive Comment.Style where
  | line
  | block
  deriving DecidableEq, Repr

structure Comment where
  style : Comment.Style
  text : String
  span : Span
  deriving DecidableEq, Repr

namespace Token

inductive Kind where
  | punctuator (text : String)
  | identifier (text : String)
  | jsxIdentifier (text : String)
  | stringLiteral (raw : String)
  | numericLiteral (raw : String)
  | jsxText (raw : String)
  | boolean (value : Bool)
  | null
  | invalid (raw message : String)
  deriving DecidableEq, Repr

namespace Kind

def text : Kind → String
  | punctuator text | identifier text | jsxIdentifier text => text
  | stringLiteral raw | numericLiteral raw | jsxText raw | invalid raw _ => raw
  | boolean true => "true"
  | boolean false => "false"
  | null => "null"

def isLiteral : Kind → Bool
  | stringLiteral _ | numericLiteral _ | boolean _ | null => true
  | _ => false

def isInvalid : Kind → Bool
  | invalid _ _ => true
  | _ => false

end Kind

end Token

structure Token where
  kind : Token.Kind
  comments : List Comment
  span : Span
  deriving DecidableEq, Repr

namespace Token

def text (t : Token) : String := t.kind.text

def isPunctuator (t : Token) (p : String) : Bool := t.kind == .punctuator p

theorem isPunctuatorIff {t : Token} {p : String} :
    t.isPunctuator p = true ↔ t.kind = .punctuator p := by
  simp [isPunctuator]

end Token

end JsxTree
