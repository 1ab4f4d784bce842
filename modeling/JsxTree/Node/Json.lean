import JsxTree.Json
import JsxTree.Node

/-! The tree as JSON, in the shape of ESTree: the type, the fields of the kind, and the two ends of
the span. -/
namespace JsxTree

inductive Field (α : Type) where
  | node (x : α)
  | option (x : Option α)
  | list (xs : List α)
  | lists (xs : Option (List α))
  | text (s : String)
  | flag (b : Bool)
  | value (v : Value)

namespace Form

variable {α : Type}

def fields : Form α → List (String × Field α)
  | fragment opening closing children =>
      [("openingFragment", .node opening), ("closingFragment", .node closing), ("children", .lists children)]
  | openingFragment | closingFragment | emptyExpression => []
  | element opening closing children =>
      [("openingElement", .node opening), ("closingElement", .option closing), ("children", .lists children)]
  | openingElement name attributes selfClosing =>
      [("name", .node name), ("attributes", .lists attributes), ("selfClosing", .flag selfClosing)]
  | closingElement name => [("name", .node name)]
  | jsxIdentifier name | identifier name => [("name", .text name)]
  | namespacedName space name => [("namespace", .node space), ("name", .node name)]
  | jsxMember object property => [("object", .node object), ("property", .node property)]
  | jsxAttribute name value => [("name", .node name), ("value", .option value)]
  | spreadAttribute argument => [("argument", .node argument)]
  | container expression | spreadChild expression => [("expression", .node expression)]
  | jsxText value raw => [("value", .text value), ("raw", .text raw)]
  | literal value raw => [("value", .value value), ("raw", .text raw)]
  | unary operator leading argument =>
      [("operator", .text operator), ("prefix", .flag leading), ("argument", .node argument)]
  | binary operator left right | logical operator left right =>
      [("operator", .text operator), ("left", .node left), ("right", .node right)]
  | member object property computed =>
      [("object", .node object), ("property", .node property), ("computed", .flag computed)]
  | call callee arguments => [("callee", .node callee), ("arguments", .list arguments)]

end Form

def Value.toJson : Value → Json
  | string s => .string s
  | number x => .number x
  | boolean b => .boolean b
  | null => .null

def Field.toJson : Field Json → Json
  | node x => x
  | option x => x.getD .null
  | list xs => .array xs
  | lists xs => (xs.map Json.array).getD .null
  | text s => .string s
  | flag b => .boolean b
  | value v => v.toJson

def Position.toJson (p : Position) : Json :=
  .object [("line", .natural p.line), ("column", .natural p.column), ("offset", .natural p.offset)]

def Span.fields (s : Span) : List (String × Json) := [("start", s.start.toJson), ("end", s.stop.toJson)]

def Span.toJson (s : Span) : Json := .object s.fields

def Form.toJson (form : Form Json) (span : Span) : Json :=
  .object (("type", .string form.kind.typeName) ::
    form.fields.map (fun (name, field) => (name, field.toJson)) ++ span.fields)

def Node.toJson (n : Node) : Json := n.fold Form.toJson

end JsxTree
