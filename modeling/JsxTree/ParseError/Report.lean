import JsxTree.ParseError
import JsxTree.Text.Lines

/-! The text of an error: on one line, or with the lines of the source it points to. A mark far to the right cannot be printed. -/
namespace JsxTree

/-- Why a run ends before it is done. Formatting counts blanks in sixteen bits. -/
inductive Abort where
  | padding
  deriving DecidableEq, Repr

def Abort.message : Abort → String
  | padding => "Formatting argument out of range"

/-- The line of the source on which a span starts, and its number, counted from one. A line is one
of those displayed; beyond the last one there is nothing to show. -/
structure Excerpt where
  number : Nat
  line : List Char
  deriving DecidableEq, Repr

namespace Excerpt

def at? (source : String) (span : Span) : Option Excerpt :=
  ((Text.lines source.toList)[span.start.line]?).map fun line => ⟨span.start.line + 1, line⟩

def blanks (n : Nat) : String := String.ofList (List.replicate n ' ')

def width (e : Excerpt) : Nat := max 2 e.number.repr.length

def numbered (e : Excerpt) : String :=
  blanks (e.width - e.number.repr.length) ++ e.number.repr ++ " | " ++ String.ofList e.line ++ "\n"

def padding (column : Nat) : Except Abort String := if column < 0x10000 then .ok (blanks column) else .error .padding

def marked (e : Excerpt) (column : Nat) (mark : String) : Except Abort String :=
  (padding column).map fun indent => blanks e.width ++ " | " ++ indent ++ mark ++ "\n"

def underlined (e : Excerpt) (span : Span) : Except Abort String :=
  let stop := if span.stop.line = span.start.line then span.stop.column else e.line.length
  let carets := max 1 (stop - span.start.column)
  (e.marked span.start.column (String.ofList (List.replicate carets '^'))).map
    (blanks e.width ++ " |\n" ++ e.numbered ++ ·)

def pointed (e : Excerpt) (span : Span) : Except Abort String :=
  (e.marked span.start.column "-").map (blanks 5 ++ e.numbered ++ blanks 5 ++ ·)

end Excerpt

namespace ParseError

def Note.Kind.label : Note.Kind → String
  | general => "note"
  | help => "help"

def location (e : ParseError) : String :=
  e.span.file.getD "<input>" ++ ":" ++ (e.span.start.line + 1).repr ++ ":" ++
    (e.span.start.column + 1).repr

def oneLine (e : ParseError) : String := e.location ++ ": error: " ++ e.message

def excerptOf (source : Option String) (draw : Excerpt → Span → Except Abort String) (span : Span) :
    Except Abort String :=
  match source.bind (Excerpt.at? · span) with
  | some x => draw x span
  | none => .ok ""

def Note.report (source : Option String) (n : Note) : Except Abort String :=
  let excerpt := match n.span with
    | some span => excerptOf source Excerpt.pointed span
    | none => .ok ""
  excerpt.map ("   = " ++ n.kind.label ++ ": " ++ n.message ++ "\n" ++ ·)

def report (e : ParseError) (source : Option String) : Except Abort String := do
  let excerpt ← excerptOf source Excerpt.underlined e.span
  let notes ← e.notes.mapM (Note.report source)
  return "error: " ++ e.message ++ "\n  --> " ++ e.location ++ "\n" ++ excerpt ++ String.join notes

end ParseError

end JsxTree
