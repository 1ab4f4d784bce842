import JsxTree.Node

/-! The source text of a node: its slice of the source it was read from or, without one, a
normal form with single blanks, every binary operation in parentheses and no comments. -/
namespace JsxTree

namespace Form

def concat (texts : Option (List String)) : String := String.join (texts.getD [])

def source : Form String → String
  | fragment _ _ children => "<>" ++ concat children ++ "</>"
  | openingFragment => "<>"
  | closingFragment => "</>"
  | element opening closing children => opening ++ concat children ++ closing.getD ""
  | openingElement name attributes selfClosing =>
      "<" ++ name ++ concat (attributes.map (List.map (" " ++ ·))) ++ (if selfClosing then " />" else ">")
  | closingElement name => "</" ++ name ++ ">"
  | jsxIdentifier name | identifier name => name
  | namespacedName space name => space ++ ":" ++ name
  | jsxMember object property => object ++ "." ++ property
  | jsxAttribute name none => name
  | jsxAttribute name (some value) => name ++ "=" ++ value
  | spreadAttribute inner | spreadChild inner => "\x7b..." ++ inner ++ "\x7d"
  | container expression => "\x7b" ++ expression ++ "\x7d"
  | emptyExpression => ""
  | jsxText _ raw | literal _ raw => raw
  | unary operator _ argument => operator ++ argument
  | binary operator left right | logical operator left right =>
      "(" ++ left ++ " " ++ operator ++ " " ++ right ++ ")"
  | member object property true => object ++ "[" ++ property ++ "]"
  | member object property false => object ++ "." ++ property
  | call callee arguments => callee ++ "(" ++ ", ".intercalate arguments ++ ")"

end Form

namespace Node

def source (n : Node) : String := n.fold fun form _ => form.source

def sliceOf (n : Node) (text : String) : String := (n.span.bytes.slice text).getD ""

end Node

end JsxTree
