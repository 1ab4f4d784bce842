import Mathlib
import JsxTree.Scanner

/-! Sessions with a scanner: calls one after another, in any order, each with its answer. A checkpoint is
called by its number among those taken. -/
namespace JsxTree

inductive Call where
  | current
  | peek
  | advance
  | consume (ps : List String)
  | atEnd
  | setMode (m : Mode)
  | readText
  | skipTrivia (required : Bool)
  | lastEnd
  | checkpoint
  | rewind (i : Nat)
  deriving DecidableEq, Repr

inductive Answer where
  | token (t : Option Token)
  | flag (b : Bool)
  | bytes (n : Option Nat)
  | position (p : Position)
  | done
  deriving DecidableEq, Repr

structure Session (σ : Type) where
  scanner : σ
  marks : List Checkpoint

namespace Session

variable {σ : Type}

def run (ask : Session σ → Call → Answer × Session σ) : List Call → Session σ → List Answer × Session σ
  | [], s => ([], s)
  | call :: calls, s =>
      let (answer, s) := ask s call
      let (answers, s) := run ask calls s
      (answer :: answers, s)

end Session

def Call.goesBack : Call → Bool
  | .rewind _ => true
  | _ => false

def Call.takes : Call → Answer → List Token
  | .advance, .token (some t) | .consume _, .token (some t) => [t]
  | _, _ => []

def handedOut : List Call → List Answer → List Token
  | call :: calls, answer :: answers => call.takes answer ++ handedOut calls answers
  | _, _ => []

namespace Scanner

def session (source : String) (file : Option String) : Session Scanner := ⟨start source file, []⟩

def ask (s : Session Scanner) : Call → Answer × Session Scanner
  | .current => (.token s.scanner.current.1, { s with scanner := s.scanner.current.2 })
  | .peek => (.token s.scanner.peek.1, { s with scanner := s.scanner.peek.2 })
  | .advance => (.token s.scanner.advance.1, { s with scanner := s.scanner.advance.2 })
  | .consume ps => (.token (s.scanner.consume ps).1, { s with scanner := (s.scanner.consume ps).2 })
  | .atEnd => (.flag s.scanner.atEnd.1, { s with scanner := s.scanner.atEnd.2 })
  | .setMode m => (.done, { s with scanner := s.scanner.setMode m })
  | .readText => (.token s.scanner.readText.1, { s with scanner := s.scanner.readText.2 })
  | .skipTrivia required =>
      (.bytes (s.scanner.skipTrivia required).1, { s with scanner := (s.scanner.skipTrivia required).2 })
  | .lastEnd => (.position s.scanner.lastEnd, s)
  | .checkpoint => (.done, { s with marks := s.marks ++ [s.scanner.checkpoint] })
  | .rewind i =>
      match s.marks[i]? with
      | some mark => (.done, { s with scanner := s.scanner.rewind mark })
      | none => (.done, s)

end Scanner

end JsxTree
