import JsxTree.Config
import JsxTree.Node
import JsxTree.ParseError
import JsxTree.Scanner

/-! A parser is a scanner, its settings and the nesting depth. Steps on it keep the state they
have reached when they fail, so that work can go on after an error. -/
namespace JsxTree

structure Parser where
  scanner : Scanner
  config : Config
  depth : Nat
  asserting : Bool
  deriving DecidableEq, Repr

/-- Why a step gives no result. Only the first is a matter of the source. -/
inductive Halt where
  | error (e : ParseError)
  | exhausted
  /-- An assertion failed: a node was completed as another kind than it was opened as, or ends before it starts. -/
  | misshapen
  deriving DecidableEq, Repr

abbrev Parse := EStateM Halt Parser

/-- A rule matches, or does not match and consumes nothing, or fails: a construct had begun and
cannot be completed. -/
abbrev Rule (α : Type) := Parse (Option α)

structure OpenNode where
  kind : Kind
  start : Position
  deriving DecidableEq, Repr

inductive Start where
  | position (p : Position)
  | token (t : Token)
  | node (n : Node)
  | firstOf (ns : List Node)
  | current

namespace Parser

def start (source : String) (config : Config) (file : Option String) : Parser :=
  ⟨.start source file, config, 0, false⟩

section Scanning

variable {α : Type}

def scan (f : Scanner → α × Scanner) : Parse α := fun p =>
  .ok (f p.scanner).1 { p with scanner := (f p.scanner).2 }

def current : Parse (Option Token) := scan Scanner.current

def peek : Parse (Option Token) := scan Scanner.peek

def advance : Parse (Option Token) := scan Scanner.advance

def consume (ps : List String) : Parse (Option Token) := scan (Scanner.consume ps)

def readText : Parse (Option Token) := scan Scanner.readText

def atEnd : Parse Bool := scan Scanner.atEnd

def lastEnd : Parse Position := fun p => .ok p.scanner.lastEnd p

def currentIs (p : String) : Parse Bool := return (← current).any (·.isPunctuator p)

def peekIs (p : String) : Parse Bool := return (← peek).any (·.isPunctuator p)

end Scanning

section Errors

variable {α : Type}

def spanOf (start stop : Position) : Parse Span := fun p => .ok ⟨start, stop, p.scanner.file⟩ p

def currentSpan : Parse Span := do
  match ← current with
  | some token => return token.span
  | none => do
      let p ← lastEnd
      spanOf p p

/-- The current token beyond any trivia; none at the end and in front of a comment that is never
closed. -/
def found : Parse (Option Token) := do
  match ← scan (Scanner.skipTrivia false) with
  | some _ => current
  | none => return none

def unexpected (position : Option Position) : Parse ParseError := do
  match ← found with
  | none => do
      let p := position.getD (← lastEnd)
      return ⟨"unexpected end of input", ← spanOf p p, .unexpectedEnd, []⟩
  | some token => do
      let span ← match position with
        | some p => spanOf p p
        | none => pure token.span
      match token.kind with
      | .invalid _ message => return ⟨message, span, .invalidToken, []⟩
      | kind => return ⟨"unexpected token `" ++ kind.text ++ "`", span, .unexpectedToken kind.text, []⟩

def errorWith (message : String) (position : Option Position) : Parse ParseError := do
  let span ← match position with
    | some p => spanOf p p
    | none => currentSpan
  return ⟨message, span, .other, []⟩

def fail (e : ParseError) : Parse α := throw (.error e)

def failUnexpected : Parse α := do fail (← unexpected none)

def expect (p : String) : Parse Token := do
  match ← consume [p] with
  | some token => return token
  | none => failUnexpected

def required (rule : Rule α) : Parse α := do
  match ← rule with
  | some a => return a
  | none => failUnexpected

end Errors

section Nodes

def currentPosition : Parse Position := do
  match ← current with
  | some token => return token.span.start
  | none => lastEnd

def openNode (kind : Kind) (start : Start) : Parse OpenNode := do
  match start with
  | .position p => return ⟨kind, p⟩
  | .token token => return ⟨kind, token.span.start⟩
  | .node n => return ⟨kind, n.span.start⟩
  | .firstOf (n :: _) => return ⟨kind, n.span.start⟩
  | .firstOf [] | .current => return ⟨kind, ← currentPosition⟩

def assert (claim : Prop) [Decidable claim] : Parse Unit := do
  if (← get).asserting ∧ ¬claim then throw .misshapen

def complete (node : OpenNode) (form : Form Node) (stop : Option Position) : Parse Node := do
  let stop := stop.getD (← lastEnd)
  assert (node.kind = form.kind ∧ node.start ≤ stop)
  return ⟨form, ← spanOf node.start stop⟩

end Nodes

section Scopes

variable {α : Type}

def setMode (mode : Mode) (p : Parser) : Parser := { p with scanner := p.scanner.setMode mode }

def withMode (mode : Mode) (body : Parse α) : Parse α := fun p =>
  match body (p.setMode mode) with
  | .ok a p' => .ok a (p'.setMode p.scanner.mode)
  | .error e p' => .error e (p'.setMode p.scanner.mode)

def enter : Parse Unit := do
  let p ← get
  if p.config.maxDepth ≤ p.depth then
    fail ⟨"maximum nesting depth exceeded", ← currentSpan, .depthExceeded p.config.maxDepth, []⟩
  else set { p with depth := p.depth + 1 }

def leave (p : Parser) : Parser := { p with depth := p.depth - 1 }

def deeper (body : Parse α) : Parse α := do
  enter
  fun p =>
    match body p with
    | .ok a p' => .ok a p'.leave
    | .error e p' => .error e p'.leave

end Scopes

end Parser

end JsxTree
