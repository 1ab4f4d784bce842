import JsxTree.Grammar.Markup

/-! Expressions: six levels of binary operators, prefix operators, members and calls, and primary
expressions, markup among them. -/
namespace JsxTree.Grammar

open JsxTree.Parser

structure Level where
  operators : List String
  join : Join
  deriving DecidableEq, Repr

def levels : List Level := [
  ⟨["||", "??"], .logical⟩,
  ⟨["&&"], .logical⟩,
  ⟨["===", "!==", "==", "!="], .binary⟩,
  ⟨["<=", ">=", "<", ">"], .binary⟩,
  ⟨["+", "-"], .binary⟩,
  ⟨["*", "/", "%"], .binary⟩]

def prefixOperators : List String := ["!", "-", "+", "~"]

section Primary

def isIdentifier : Token.Kind → Bool
  | .identifier _ => true
  | _ => false

def identifier : Parse (Option Node) := do
  match ← tokenWhere isIdentifier with
  | none => return none
  | some token => do
      let node ← openNode .identifier (.token token)
      return some (← complete node (.identifier token.text) none)

def parenthesized (inner : Inner) : Parse Node := do
  let _ ← expect "("
  let expression ← requiredExpression inner
  let _ ← expect ")"
  return expression

def literalToken : Parse (Option Node) := do
  match ← advance with
  | none => return none
  | some token => literal token

def primary (inner : Inner) : Parse (Option Node) := do
  match ← current with
  | none => return none
  | some token =>
      if isIdentifier token.kind then identifier
      else if token.kind.isLiteral then literalToken
      else if token.isPunctuator "(" then return some (← deeper (parenthesized inner))
      else if token.isPunctuator "<" && (← get).config.jsx then do
        match ← fragment inner with
        | some markup => return some markup
        | none => element inner
      else return none

end Primary

section Suffixes

def computedProperty (inner : Inner) : Parse Node := do
  let property ← requiredExpression inner
  let _ ← expect "]"
  return property

def arguments (inner : Inner) : Parse (List Node) := do
  let items ← separatedList (inner .expression) [","]
  let _ ← expect ")"
  return items.map (·.item)

def completeMember (object property : Node) (computed : Bool) : Parse Node := do
  let node ← openNode .member (.node object)
  complete node (.member object property computed) none

def call (inner : Inner) (callee : Node) : Parse Node := do
  let arguments ← deeper (arguments inner)
  let node ← openNode .call (.node callee)
  complete node (.call callee arguments) none

def suffix (inner : Inner) (object : Node) : Parse (Option Node) := do
  match ← consume ["."] with
  | some _ => return some (← completeMember object (← required identifier) false)
  | none => do
      match ← consume ["["] with
      | some _ => return some (← completeMember object (← deeper (computedProperty inner)) true)
      | none => do
          match ← consume ["("] with
          | some _ => return some (← call inner object)
          | none => return none

def callOrMember (inner : Inner) : Parse (Option Node) := do
  match ← primary inner with
  | none => return none
  | some object => return some (← grow (suffix inner) object)

end Suffixes

def unary (inner : Inner) : Parse (Option Node) := do
  match ← consume prefixOperators with
  | none => callOrMember inner
  | some operator => do
      match ← deeper (inner .unary) with
      | none => failUnexpected
      | some argument => do
          let node ← openNode .unary (.token operator)
          return some (← complete node (.unary operator.text true argument) none)

def expression (inner : Inner) : Rule Node :=
  levels.foldr (fun level operand => leftFold operand level.operators level.join) (unary inner)

end JsxTree.Grammar
