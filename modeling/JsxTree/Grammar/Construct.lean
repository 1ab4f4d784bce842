import JsxTree.Literal.Numeral
import JsxTree.Parser.Repetition

/-! The constructs that contain one another. A rule is written over the rules for the constructs
inside, and reaches them only after it has consumed something. -/
namespace JsxTree

inductive Construct where
  | expression
  | unary
  | fragment
  | element
  deriving DecidableEq, Repr

abbrev Inner := Construct → Rule Node

namespace Grammar

open JsxTree.Parser

def requiredExpression (inner : Inner) : Parse Node := required (inner .expression)

def literalValue? : Token.Kind → Option Value
  | .stringLiteral raw => some (.string (Literal.unquote raw))
  | .numericLiteral raw => some (.number (Literal.numeral raw))
  | .boolean b => some (.boolean b)
  | .null => some .null
  | _ => none

def literal (token : Token) : Parse (Option Node) := do
  match literalValue? token.kind with
  | none => return none
  | some value => do
      let node ← openNode .literal (.token token)
      return some (← complete node (.literal value token.text) (some token.span.stop))

def tokenWhere (test : Token.Kind → Bool) : Parse (Option Token) := do
  if (← current).any (fun token => test token.kind) then advance else return none

end Grammar

end JsxTree
