import JsxTree.Grammar.Construct
import JsxTree.Node.Name

/-! Fragments and elements: tags, names, attributes and children. Two tokens of lookahead decide
which construct begins, if any. Tags and children are read in JSX mode, what stands between braces
in script mode. -/
namespace JsxTree.Grammar

open JsxTree.Parser

section Names

def isJsxIdentifier : Token.Kind → Bool
  | .jsxIdentifier _ => true
  | _ => false

def jsxIdentifier : Parse (Option Node) := do
  match ← tokenWhere isJsxIdentifier with
  | none => return none
  | some token => do
      let node ← openNode .jsxIdentifier (.token token)
      return some (← complete node (.jsxIdentifier token.text) (some token.span.stop))

def memberStep (object : Node) : Parse (Option Node) := do
  match ← consume ["."] with
  | none => return none
  | some _ => do
      let property ← required jsxIdentifier
      let node ← openNode .jsxMember (.node object)
      return some (← complete node (.jsxMember object property) (some property.span.stop))

def name (chained : Bool) : Parse (Option Node) := do
  match ← jsxIdentifier with
  | none => return none
  | some first => do
      match ← consume [":"] with
      | some _ => do
          let own ← required jsxIdentifier
          let node ← openNode .namespacedName (.node first)
          return some (← complete node (.namespacedName first own) none)
      | none => if chained then return some (← grow memberStep first) else return some first

end Names

section Attributes

def isStringLiteral : Token.Kind → Bool
  | .stringLiteral _ => true
  | _ => false

def stringLiteral : Parse (Option Node) := do
  match ← tokenWhere isStringLiteral with
  | none => return none
  | some token => literal token

def valueContainer (inner : Inner) (brace : Token) : Parse Node := do
  let node ← openNode .container (.token brace)
  let expression ← withMode .script do
    let expression ← requiredExpression inner
    let _ ← expect "\x7d"
    return expression
  complete node (.container expression) none

def markup (inner : Inner) : Parse (Option Node) := do
  match ← inner .fragment with
  | some fragment => return some fragment
  | none => inner .element

def attributeValue (inner : Inner) : Parse Node := do
  match ← stringLiteral with
  | some value => return value
  | none => do
      match ← consume ["\x7b"] with
      | some brace => valueContainer inner brace
      | none => required (markup inner)

def spreadAttribute (inner : Inner) : Parse (Option Node) := do
  match ← consume ["\x7b"] with
  | none => return none
  | some brace => do
      let node ← openNode .spreadAttribute (.token brace)
      let argument ← withMode .script do
        let _ ← expect "..."
        let argument ← requiredExpression inner
        let _ ← expect "\x7d"
        return argument
      return some (← complete node (.spreadAttribute argument) none)

def namedAttribute (inner : Inner) : Parse (Option Node) := do
  match ← name false with
  | none => return none
  | some own => do
      let node ← openNode .jsxAttribute (.node own)
      match ← consume ["="] with
      | none => return some (← complete node (.jsxAttribute own none) none)
      | some _ => do
          let value ← attributeValue inner
          return some (← complete node (.jsxAttribute own (some value)) none)

def attribute? (inner : Inner) : Parse (Option Node) := do
  match ← spreadAttribute inner with
  | some spread => return some spread
  | none => namedAttribute inner

end Attributes

section Children

def textChild : Parse (Option Node) := do
  match ← readText with
  | none => return none
  | some _ => do
      match ← advance with
      | none => return none
      | some token => do
          let node ← openNode .jsxText (.token token)
          return some (← complete node (.jsxText token.text token.text) (some token.span.stop))

/-- A child in braces: a spread, an expression or, with nothing between the braces, an empty
expression placed right after the first one. -/
def bracedContents (inner : Inner) (brace : Token) : Parse Node := do
  let spread ← consume ["..."]
  let expression ← inner .expression
  let after ← lastEnd
  match spread, expression with
  | some _, none => failUnexpected
  | some _, some expression => do
      let _ ← expect "\x7d"
      let node ← openNode .spreadChild (.token brace)
      complete node (.spreadChild expression) none
  | none, some expression => do
      let _ ← expect "\x7d"
      let node ← openNode .container (.token brace)
      complete node (.container expression) none
  | none, none => do
      let _ ← expect "\x7d"
      let empty ← openNode .emptyExpression (.position after)
      let expression ← complete empty .emptyExpression (some after)
      let node ← openNode .container (.token brace)
      complete node (.container expression) none

def bracedChild (inner : Inner) : Parse (Option Node) := do
  match ← consume ["\x7b"] with
  | none => return none
  | some brace => return some (← withMode .script (bracedContents inner brace))

def child (inner : Inner) : Parse (Option Node) := do
  match ← textChild with
  | some text => return some text
  | none => do
      match ← markup inner with
      | some nested => return some nested
      | none => bracedChild inner

end Children

def presentList (ns : List Node) : Option (List Node) := if ns.isEmpty then none else some ns

def children (inner : Inner) : Parse (Option (List Node)) := return presentList (← many (child inner))

def attributes (inner : Inner) : Parse (Option (List Node)) :=
  return presentList (← many (attribute? inner))

section Tags

def fragmentBody (inner : Inner) : Parse Node := do
  let less ← expect "<"
  let greater ← expect ">"
  let children ← children inner
  let closingLess ← expect "<"
  let _ ← expect "/"
  let _ ← expect ">"
  let node ← openNode .openingFragment (.token less)
  let opening ← complete node .openingFragment (some greater.span.stop)
  let node ← openNode .closingFragment (.token closingLess)
  let closing ← complete node .closingFragment none
  let node ← openNode .fragment (.token less)
  complete node (.fragment opening closing children) none

def fragment (inner : Inner) : Parse (Option Node) := do
  if ← currentIs "<" then
    if ← peekIs ">" then return some (← deeper (withMode .jsx (fragmentBody inner)))
    else return none
  else return none

def mismatchedClosingTag (opening closing : Node) : ParseError :=
  let openingText := opening.nameText.getD ""
  ⟨"closing tag does not match opening tag", closing.span,
    .mismatchedClosingTag openingText (closing.nameText.getD ""),
    [⟨.general, "opening tag `" ++ openingText ++ "` here", some opening.span⟩,
      ⟨.help, "close the element with `</" ++ openingText ++ ">`", none⟩]⟩

def closingTag (opening : Node) : Parse Node := do
  let less ← expect "<"
  let _ ← expect "/"
  let closing ← required (name true)
  let _ ← expect ">"
  if opening.sameName closing then
    let node ← openNode .closingElement (.token less)
    complete node (.closingElement closing) none
  else fail (mismatchedClosingTag opening closing)

def elementTail (inner : Inner) (opening : Node) (selfClosing : Bool) :
    Parse (Option (List Node) × Option Node) := do
  if selfClosing then return (none, none)
  else
    let children ← children inner
    let closing ← closingTag opening
    return (children, some closing)

def elementBody (inner : Inner) : Parse Node := do
  let less ← expect "<"
  let own ← required (name true)
  let attributes ← attributes inner
  let slash ← consume ["/"]
  let greater ← expect ">"
  let (children, closing) ← elementTail inner own slash.isSome
  let node ← openNode .openingElement (.token less)
  let opening ← complete node (.openingElement own attributes slash.isSome) (some greater.span.stop)
  let node ← openNode .element (.token less)
  complete node (.element opening closing children) none

def element (inner : Inner) : Parse (Option Node) := do
  if ← currentIs "<" then
    if ← peekIs "/" then return none
    else return some (← deeper (withMode .jsx (elementBody inner)))
  else return none

end Tags

end JsxTree.Grammar
