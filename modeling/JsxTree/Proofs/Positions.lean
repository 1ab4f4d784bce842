import JsxTree.Proofs.Spans

/-! Positions counted from the text. What a scanner counts as it goes is what is in front: the line breaks, and the
characters since the last one. -/
namespace JsxTree

namespace Text

/-- The line breaks of a text, a carriage return and the line feed after it as one. -/
def breaks : List Char → Nat
  | [] => 0
  | '\r' :: '\n' :: cs => breaks cs + 1
  | c :: cs => breaks cs + if isLineBreak c then 1 else 0

def lastLine (cs : List Char) : List Char := (cs.reverse.takeWhile (!isLineBreak ·)).reverse

def unitLength (cs : List Char) : Nat := cs.foldl (fun n c => n + utf16Units c) 0

end Text

def Position.behind (cs : List Char) : Position :=
  ⟨Text.breaks cs, (Text.lastLine cs).length, some (Text.unitLength (Text.lastLine cs)), Text.byteLength cs⟩

/-- The position at an offset, where a character begins or the text ends. -/
def Position.at? (source : String) (offset : Nat) : Option Position :=
  (Text.takeBytes offset source.toList).map behind

def Counted (source : String) (p : Position) : Prop := Position.at? source p.offset = some p

section Counting

open Text

variable {cs : List Char} {c : Char}

theorem Text.breaksCons (c : Char) (cs : List Char) : breaks (c :: cs) =
    breaks cs + if isLineBreak c ∧ ¬(c = '\r' ∧ cs.head? = some '\n') then 1 else 0 := by
  by_cases joined : c = '\r' ∧ cs.head? = some '\n'
  · obtain ⟨rfl, head⟩ := joined
    obtain ⟨more, rfl⟩ := List.head?_eq_some_iff.mp head
    simp [breaks, isLineBreak]
  · rw [breaks]
    · simp only [joined, not_false_eq_true, and_true]
    · rintro more rfl rfl
      exact joined ⟨rfl, rfl⟩

theorem Text.breaksAppend (cs : List Char) (c : Char) : breaks (cs ++ [c]) =
    breaks cs + if isLineBreak c ∧ ¬(c = '\n' ∧ cs.getLast? = some '\r') then 1 else 0 := by
  induction cs with
  | nil => simp [breaksCons, breaks]
  | cons b bs ih =>
      rw [List.cons_append, breaksCons, ih, breaksCons]
      cases bs with
      | nil =>
          by_cases joined : b = '\r' ∧ c = '\n'
          · simp [breaks, isLineBreak, joined.1, joined.2]
          · have apart : ¬(c = '\n' ∧ b = '\r') := fun both => joined both.symm
            simp [breaks, joined, apart, Nat.add_comm]
      | cons => simp [Nat.add_right_comm]

theorem Text.lastLineBreak (cs : List Char) (h : isLineBreak c = true) : lastLine (cs ++ [c]) = [] := by
  simp [lastLine, h]

theorem Text.lastLineMore (cs : List Char) (h : isLineBreak c = false) : lastLine (cs ++ [c]) = lastLine cs ++ [c] := by
  simp [lastLine, h]

theorem Text.unitLengthAppend (cs : List Char) (c : Char) : unitLength (cs ++ [c]) = unitLength cs + utf16Units c := by
  simp [unitLength]

def Place.behind (cs : List Char) : Place :=
  ⟨breaks cs, (lastLine cs).length, unitLength (lastLine cs), byteLength cs, cs.getLast? = some '\r'⟩

theorem Place.nextBehind (cs : List Char) (c : Char) : (behind cs).next c = behind (cs ++ [c]) := by
  have offset : byteLength (cs ++ [c]) = byteLength cs + c.utf8Size := by
    rw [Text.byteLengthAppend]
    rfl
  have last : (cs ++ [c]).getLast? = some c := List.getLast?_concat
  -- A line feed right behind a carriage return moves the offset only: the break is counted already.
  by_cases joined : c = '\n' ∧ cs.getLast? = some '\r'
  · obtain ⟨rfl, ended⟩ := joined
    obtain ⟨front, rfl⟩ := List.getLast?_eq_some_iff.mp ended
    have feed : lastLine (front ++ ['\r'] ++ ['\n']) = [] := lastLineBreak _ rfl
    have back : lastLine (front ++ ['\r']) = [] := lastLineBreak _ rfl
    simp [behind, Place.next, breaksAppend, offset, feed, back, -List.append_assoc]
  · cases line : isLineBreak c with
    | true => simp [behind, Place.next, breaksAppend, offset, last, joined, line, lastLineBreak cs line, unitLength]
    | false =>
        have plain : c ≠ '\r' := fun same => by simp [same, isLineBreak] at line
        simp [behind, Place.next, breaksAppend, offset, last, joined, line, lastLineMore cs line, unitLengthAppend, plain]

theorem Place.pastOrigin (cs : List Char) : Place.origin.past cs = behind cs := by
  rw [← List.reverse_reverse cs]
  -- From the end, as a place knows only the text in front of it.
  induction cs.reverse with
  | nil => rfl
  | cons c back ih => rw [List.reverse_cons, Place.pastAppend, ih, Place.pastCons, Place.pastNil, nextBehind]

theorem Place.counted (cs : List Char) : (Place.origin.past cs).position = Position.behind cs := by
  rw [pastOrigin]
  rfl

end Counting

theorem Cursor.Within.counted {source : String} {c : Cursor} (h : c.Within source) : Counted source c.position := by
  obtain ⟨behind, whole, place⟩ := h
  have here : c.position = Position.behind behind := by rw [Cursor.position, place, Place.counted]
  rw [Counted, here, Position.at?, whole]
  exact congrArg (Option.map Position.behind) (Text.takeBytesAppend behind c.rest)

theorem Counted.equal {source : String} {p q : Position} (hp : Counted source p) (hq : Counted source q)
    (same : p.offset = q.offset) : p = q := by
  rw [Counted, same, hq] at hp
  exact (Option.some.inj hp).symm

theorem originCounted (source : String) : Counted source .origin := (Cursor.startWithin source).counted

def Span.ofText (behind text : List Char) (file : Option String) : Span :=
  ⟨.behind behind, .behind (behind ++ text), file⟩

namespace Cursor

variable {source : String} {front : List Char} {c c' : Cursor}

theorem Within.place (within : c.Within source) (whole : source.toList = front ++ c.rest) :
    c.position = .behind front := by
  obtain ⟨before, split, place⟩ := within
  have same : before = front := List.append_cancel_right (split.symm.trans whole)
  rw [position, place, Place.counted, same]

theorem Within.spans (within : c.Within source) (reaches : c.skip.Reaches c') (front text : List Char)
    (start : c.skip.rest = text ++ c'.rest) (whole : source.toList = front ++ c.skip.rest) (file : Option String) :
    c.spanTo c' file = .ofText front text file := by
  have here := c.reachesSkip.within within
  have there : source.toList = (front ++ text) ++ c'.rest := by rw [whole, start, List.append_assoc]
  rw [spanTo, here.place whole, (reaches.within here).place there, Span.ofText]

end Cursor

end JsxTree
