import JsxTree.Grammar.Expression

/-! The grammar as a whole, and parsing a source. Every construct inside another lies behind a
token of it, so nesting is bounded by the characters left, whatever the limit on depth. -/
namespace JsxTree

namespace Grammar

def construct (inner : Inner) : Construct → Rule Node
  | .expression => expression inner
  | .unary => unary inner
  | .fragment => fragment inner
  | .element => element inner

/-- The rule for a construct, with at most `budget` constructs one inside the other. -/
def within : (budget : Nat) → Construct → Rule Node
  | 0, _ => EStateM.throw .exhausted
  | budget + 1, c => construct (within budget) c

end Grammar

namespace Parser

def rule (c : Construct) : Rule Node := fun p =>
  Grammar.within (p.scanner.cursor.rest.length + 1) c p

def wholeExpression : Parse Node := do
  let n ← required (rule .expression)
  if ← atEnd then return n else failUnexpected

end Parser

def parse (source : String) (config : Config) (file : Option String) : Except Halt Node :=
  match Parser.wholeExpression (Parser.start source config file) with
  | .ok n _ => .ok n
  | .error e _ => .error e

/-- The same in a build that checks assertions. -/
def parseAsserting (source : String) (config : Config) (file : Option String) : Except Halt Node :=
  match Parser.wholeExpression { Parser.start source config file with asserting := true } with
  | .ok n _ => .ok n
  | .error e _ => .error e

end JsxTree
