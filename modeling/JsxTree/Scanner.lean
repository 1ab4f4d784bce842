import JsxTree.Source.Cursor
import JsxTree.Token.Lexeme

/-! The scanner hands out tokens from a cursor, two of lookahead at most. Tokens read ahead are
kept until they are consumed, and dropped when the mode changes or the scanner is rewound; going
past trivia moves the cursor but keeps them. -/
namespace JsxTree

structure Scanner.Ahead where
  token : Token
  after : Cursor
  deriving DecidableEq, Repr

/-- `lastEnd` is where the last consumed token ended; the cursor lies there or, when trivia was
skipped since, further on. -/
structure Scanner where
  cursor : Cursor
  lastEnd : Position
  mode : Mode
  ahead : List Scanner.Ahead
  file : Option String
  deriving DecidableEq, Repr

structure Checkpoint where
  cursor : Cursor
  lastEnd : Position
  deriving DecidableEq, Repr

namespace Scanner

def start (source : String) (file : Option String) : Scanner :=
  ⟨.start source, .origin, .script, [], file⟩

def lex? (file : Option String) (mode : Mode) (c : Cursor) : Option Ahead :=
  let (trivia, rest) := Trivia.split c.rest
  let first := c.place.past (Trivia.raw trivia)
  (Lexeme.next? mode rest).map fun lexeme =>
    let after := first.past lexeme.raw
    ⟨⟨lexeme.kind, Trivia.comments file c.place trivia, ⟨first.position, after.position, file⟩⟩,
      ⟨after, lexeme.rest⟩⟩

def readAhead (s : Scanner) : Scanner :=
  let from? := s.ahead.getLast?.map (·.after)
  match lex? s.file s.mode (from?.getD s.cursor) with
  | some a => { s with ahead := s.ahead ++ [a] }
  | none => s

def fill : Nat → Scanner → Scanner
  | 0, s => s
  | n + 1, s =>
      let s := s.fill n
      if s.ahead.length ≤ n then s.readAhead else s

def current (s : Scanner) : Option Token × Scanner :=
  let s := s.fill 1
  (s.ahead[0]?.map (·.token), s)

def peek (s : Scanner) : Option Token × Scanner :=
  let s := s.fill 2
  (s.ahead[1]?.map (·.token), s)

def advance (s : Scanner) : Option Token × Scanner :=
  let s := s.fill 1
  match s.ahead with
  | [] => (none, s)
  | a :: more => (some a.token, { s with cursor := a.after, lastEnd := a.token.span.stop, ahead := more })

def consume (ps : List String) (s : Scanner) : Option Token × Scanner :=
  let (token, s) := s.current
  if token.any (fun t => ps.any t.isPunctuator) then s.advance else (none, s)

def atEnd (s : Scanner) : Bool × Scanner :=
  let (token, s) := s.current
  (token.isNone, s)

def checkpoint (s : Scanner) : Checkpoint := ⟨s.cursor, s.lastEnd⟩

def rewind (c : Checkpoint) (s : Scanner) : Scanner :=
  { s with cursor := c.cursor, lastEnd := c.lastEnd, ahead := [] }

def setMode (mode : Mode) (s : Scanner) : Scanner :=
  if s.mode = mode then s else { s with mode, ahead := [] }

def readText (s : Scanner) : Option Token × Scanner :=
  match Lexeme.jsxText? s.cursor.rest with
  | none => (none, s)
  | some lexeme =>
      let after := s.cursor.place.past lexeme.raw
      let token := Token.mk lexeme.kind [] ⟨s.cursor.position, after.position, s.file⟩
      (some token, { s with ahead := [⟨token, ⟨after, lexeme.rest⟩⟩] })

/-- The bytes of trivia gone past. There is no answer, and no move, in front of a comment that is
never closed, nor where trivia is required and there is none. -/
def skipTrivia (required : Bool) (s : Scanner) : Option Nat × Scanner :=
  let (trivia, rest) := Trivia.split s.cursor.rest
  let place := s.cursor.place.past (Trivia.raw trivia)
  if Trivia.opensComment rest || (required && trivia.isEmpty) then (none, s)
  else (some (place.offset - s.cursor.place.offset), { s with cursor := ⟨place, rest⟩ })

end Scanner

end JsxTree
