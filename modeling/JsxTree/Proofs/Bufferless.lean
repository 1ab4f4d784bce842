import JsxTree.Proofs.Sessions
import JsxTree.Proofs.Standing

/-! A scanner that keeps no lookahead answers like one that does. It reads the token asked for afresh each time, from the
cursor and in the mode of the moment; of what was read before it keeps only a run of text that stands for the current
token. -/
namespace JsxTree

structure Bufferless where
  cursor : Cursor
  lastEnd : Position
  mode : Mode
  text : Option Scanner.Ahead
  file : Option String

namespace Bufferless

def start (source : String) (file : Option String) : Bufferless := ⟨.start source, .origin, .script, none, file⟩

def current (s : Bufferless) : Option Scanner.Ahead := s.text.or (Scanner.lex? s.file s.mode s.cursor)

def peek (s : Bufferless) : Option Scanner.Ahead := s.current.bind fun a => Scanner.lex? s.file s.mode a.after

def advance (s : Bufferless) : Option Token × Bufferless :=
  match s.current with
  | none => (none, s)
  | some a => (some a.token, { s with cursor := a.after, lastEnd := a.token.span.stop, text := none })

def consume (ps : List String) (s : Bufferless) : Option Token × Bufferless :=
  if s.current.any (fun a => ps.any a.token.isPunctuator) then s.advance else (none, s)

def setMode (m : Mode) (s : Bufferless) : Bufferless := if s.mode = m then s else { s with mode := m, text := none }

def readText (s : Bufferless) : Option Token × Bufferless :=
  match s.cursor.text? with
  | none => (none, s)
  | some (raw, after) =>
      let token := Token.mk (.jsxText raw) [] ⟨s.cursor.position, after.position, s.file⟩
      (some token, { s with text := some ⟨token, after⟩ })

def skipTrivia (required : Bool) (s : Bufferless) : Option Nat × Bufferless :=
  let beyond := s.cursor.skip
  let bytes := beyond.place.offset - s.cursor.place.offset
  if Trivia.opensComment beyond.rest || (required && bytes == 0) then (none, s)
  else (some bytes, { s with cursor := beyond })

def checkpoint (s : Bufferless) : Checkpoint := ⟨s.cursor, s.lastEnd⟩

def rewind (c : Checkpoint) (s : Bufferless) : Bufferless :=
  { s with cursor := c.cursor, lastEnd := c.lastEnd, text := none }

def session (source : String) (file : Option String) : Session Bufferless := ⟨start source file, []⟩

def ask (s : Session Bufferless) : Call → Answer × Session Bufferless
  | .current => (.token (s.scanner.current.map (·.token)), s)
  | .peek => (.token (s.scanner.peek.map (·.token)), s)
  | .advance => (.token s.scanner.advance.1, { s with scanner := s.scanner.advance.2 })
  | .consume ps => (.token (s.scanner.consume ps).1, { s with scanner := (s.scanner.consume ps).2 })
  | .atEnd => (.flag s.scanner.current.isNone, s)
  | .setMode m => (.done, { s with scanner := s.scanner.setMode m })
  | .readText => (.token s.scanner.readText.1, { s with scanner := s.scanner.readText.2 })
  | .skipTrivia required =>
      (.bytes (s.scanner.skipTrivia required).1, { s with scanner := (s.scanner.skipTrivia required).2 })
  | .lastEnd => (.position s.scanner.lastEnd, s)
  | .checkpoint => (.done, { s with marks := s.marks ++ [s.scanner.checkpoint] })
  | .rewind i =>
      match s.marks[i]? with
      | some mark => (.done, { s with scanner := s.scanner.rewind mark })
      | none => (.done, s)

end Bufferless

def Token.Matches (exact : Bool) (t u : Token) : Prop :=
  t.kind = u.kind ∧ t.span = u.span ∧ (exact = true → t.comments = u.comments)

def Answer.Matches (exact : Bool) : Answer → Answer → Prop
  | .token t, .token u => Option.Rel (Token.Matches exact) t u
  | a, b => a = b

def Call.skips : Call → Bool
  | .skipTrivia _ => true
  | _ => false

namespace Scanner

variable {exact : Bool} {file : Option String} {m : Mode} {c : Cursor} {s s' : Scanner} {a b : Ahead} {as : List Ahead}
  {u : Bufferless}

def Fresh (exact : Bool) (file : Option String) (m : Mode) (c : Cursor) (a : Ahead) : Prop :=
  ∃ b, lex? file m c = some b ∧ a.token.Matches exact b.token ∧ a.after = b.after

theorem lexFresh (h : lex? file m c = some a) : Fresh exact file m c a := ⟨a, h, ⟨rfl, rfl, fun _ => rfl⟩, rfl⟩

theorem Fresh.skip (h : Fresh false file m c a) : Fresh false file m c.skip a := by
  obtain ⟨b, found, ⟨kind, span, -⟩, after⟩ := h
  obtain ⟨next, own⟩ := lexAgrees found
  rw [← Cursor.nextSkip] at next
  cases again : lex? file m c.skip with
  | none => rw [lexNone again] at next; cases next
  | some b' =>
      obtain ⟨next', own'⟩ := lexAgrees again
      rw [next, Option.some.injEq, Prod.mk.injEq] at next'
      obtain ⟨kind', after'⟩ := next'
      have spans : b.token.span = b'.token.span := by
        rw [own, own', after', Cursor.spanTo, Cursor.spanTo, Cursor.skipSkip]
      exact ⟨b', again, ⟨kind.trans kind', span.trans spans, fun no => by cases no⟩, after.trans after'⟩

theorem freshSkip (h : Linked (Fresh false file m) c as) : Linked (Fresh false file m) c.skip as := by
  cases as with
  | nil => trivial
  | cons a as => exact ⟨h.1.skip, h.2⟩

theorem fillAll (n : Nat) (s : Scanner) :
    let f := s.fill n
    n ≤ f.ahead.length ∨ lex? f.file f.mode (frontier f.cursor f.ahead) = none := by
  induction n with
  | zero => exact .inl (Nat.zero_le _)
  | succ n ih =>
      simp only [fill]
      split
      · rw [readAheadOf]
        cases found : lex? (s.fill n).file (s.fill n).mode (frontier (s.fill n).cursor (s.fill n).ahead) with
        | none => exact .inr (by simpa using found)
        | some a =>
            have enough := ih.resolve_right (by simp [found])
            exact .inl (by simpa using enough)
      · rename_i enough
        exact .inl (by omega)

def Foreseen (exact : Bool) (s : Scanner) : Option Ahead → Prop
  | none => Linked (Fresh exact s.file s.mode) s.cursor s.ahead
  | some a => ∃ as, s.ahead = a :: as ∧ Linked (Fresh exact s.file s.mode) a.after as

structure Unbuffers (exact : Bool) (s : Scanner) (u : Bufferless) : Prop where
  cursor : u.cursor = s.cursor
  lastEnd : u.lastEnd = s.lastEnd
  mode : u.mode = s.mode
  file : u.file = s.file
  ahead : Foreseen exact s u.text

theorem startUnbuffers (source : String) (file : Option String) :
    Unbuffers exact (start source file) (Bufferless.start source file) := ⟨rfl, rfl, rfl, rfl, trivial⟩

theorem Foreseen.readAhead {text : Option Ahead} (h : Foreseen exact s text) : Foreseen exact s.readAhead text := by
  rw [readAheadOf]
  cases found : lex? s.file s.mode (frontier s.cursor s.ahead) with
  | none => simpa using h
  | some b =>
      cases text with
      | none => exact linkedMore h (lexFresh found)
      | some a =>
          obtain ⟨as, ahead, more⟩ := h
          rw [ahead] at found ⊢
          exact ⟨as ++ [b], rfl, linkedMore more (lexFresh found)⟩

theorem Unbuffers.foresees (h : Unbuffers exact s u) (more : Foresees s s') : Unbuffers exact s' u := by
  induction more with
  | refl => exact h
  | @more s' _ ih =>
      obtain ⟨cursor, lastEnd, mode, path⟩ := readAheadSame s'
      exact ⟨ih.cursor.trans cursor.symm, ih.lastEnd.trans lastEnd.symm, ih.mode.trans mode.symm,
        ih.file.trans path.symm, ih.ahead.readAhead⟩

theorem Unbuffers.first (h : Unbuffers exact s u) (ahead : s.ahead = a :: as) :
    ∃ b, u.current = some b ∧ a.token.Matches exact b.token ∧ a.after = b.after ∧
      Linked (Fresh exact s.file s.mode) b.after as := by
  have foreseen := h.ahead
  simp only [Bufferless.current, h.cursor, h.mode, h.file]
  cases pending : u.text with
  | none =>
      rw [pending, Foreseen, ahead] at foreseen
      obtain ⟨⟨b, found, same, after⟩, more⟩ := foreseen
      exact ⟨b, found, same, after, after ▸ more⟩
  | some b =>
      rw [pending, Foreseen, ahead] at foreseen
      obtain ⟨as', same, more⟩ := foreseen
      cases same
      exact ⟨a, rfl, ⟨rfl, rfl, fun _ => rfl⟩, rfl, more⟩

theorem Unbuffers.nothing (h : Unbuffers exact s u) (ahead : s.ahead = [])
    (ended : lex? s.file s.mode s.cursor = none) : u.current = none := by
  have foreseen := h.ahead
  simp only [Bufferless.current, h.cursor, h.mode, h.file]
  cases pending : u.text with
  | none => exact ended
  | some b =>
      rw [pending, Foreseen, ahead] at foreseen
      obtain ⟨as', same, -⟩ := foreseen
      cases same

theorem Unbuffers.current (h : Unbuffers exact s u) :
    Option.Rel (Token.Matches exact) s.current.1 (u.current.map (·.token)) := by
  have filled := h.foresees (fillForesees 1 s)
  have all := fillAll 1 s
  simp only [Scanner.current]
  cases ahead : (s.fill 1).ahead with
  | nil =>
      rw [filled.nothing ahead (by simpa [ahead, frontier] using all)]
      exact .none
  | cons a as =>
      obtain ⟨b, now, same, -, -⟩ := filled.first ahead
      rw [now]
      exact .some same

theorem Unbuffers.peek (h : Unbuffers exact s u) :
    Option.Rel (Token.Matches exact) s.peek.1 (u.peek.map (·.token)) := by
  have filled := h.foresees (fillForesees 2 s)
  have all := fillAll 2 s
  simp only [Scanner.peek, Bufferless.peek]
  cases ahead : (s.fill 2).ahead with
  | nil =>
      rw [filled.nothing ahead (by simpa [ahead, frontier] using all)]
      exact .none
  | cons a as =>
      cases as with
      | nil =>
          obtain ⟨b, now, -, after, -⟩ := filled.first ahead
          have ended : lex? u.file u.mode b.after = none := by
            rw [filled.file, filled.mode, ← after]
            simpa [ahead, frontier] using all
          rw [now, Option.bind_some, ended]
          exact .none
      | cons a' as =>
          obtain ⟨b, now, -, -, ⟨b', found, same, -⟩, -⟩ := filled.first ahead
          rw [now, Option.bind_some, filled.file, filled.mode, found]
          exact .some same

theorem matchesNone {t t' : Option Token} (h : Option.Rel (Token.Matches exact) t t') : t.isNone = t'.isNone := by
  cases h <;> rfl

theorem matchesAny {t t' : Option Token} (h : Option.Rel (Token.Matches exact) t t') (ps : List String) :
    t.any (fun t => ps.any t.isPunctuator) = t'.any (fun t => ps.any t.isPunctuator) := by
  cases h with
  | none => rfl
  | @some a b same =>
      have equal : a.isPunctuator = b.isPunctuator := funext fun p => congrArg (· == .punctuator p) same.1
      simp only [Option.any_some, equal]

theorem Unbuffers.atEnd (h : Unbuffers exact s u) : s.atEnd.1 = u.current.isNone := by
  rw [Scanner.atEnd, ← Option.isNone_map]
  exact matchesNone h.current

theorem Unbuffers.advance (h : Unbuffers exact s u) :
    Option.Rel (Token.Matches exact) s.advance.1 u.advance.1 ∧ Unbuffers exact s.advance.2 u.advance.2 := by
  have filled := h.foresees (fillForesees 1 s)
  have all := fillAll 1 s
  simp only [Scanner.advance, Bufferless.advance]
  cases ahead : (s.fill 1).ahead with
  | nil =>
      rw [filled.nothing ahead (by simpa [ahead, frontier] using all)]
      exact ⟨.none, filled⟩
  | cons a as =>
      obtain ⟨b, now, same, after, more⟩ := filled.first ahead
      have ended := congrArg Span.stop same.2.1
      rw [now]
      exact ⟨.some same, after.symm, ended.symm, filled.mode, filled.file, by rwa [← after] at more⟩

theorem Unbuffers.consume (h : Unbuffers exact s u) (ps : List String) :
    Option.Rel (Token.Matches exact) (s.consume ps).1 (u.consume ps).1 ∧
      Unbuffers exact (s.consume ps).2 (u.consume ps).2 := by
  have filled := h.foresees (currentForesees s)
  have same : s.current.1.any (fun t => ps.any t.isPunctuator) = u.current.any (fun a => ps.any a.token.isPunctuator) := by
    rw [matchesAny h.current ps, Option.any_map]
  simp only [Scanner.consume, Bufferless.consume, same]
  split
  · exact filled.advance
  · exact ⟨.none, filled⟩

theorem Unbuffers.setMode (h : Unbuffers exact s u) (m : Mode) : Unbuffers exact (s.setMode m) (u.setMode m) := by
  simp only [Scanner.setMode, Bufferless.setMode, h.mode]
  split
  · exact h
  · exact ⟨h.cursor, h.lastEnd, rfl, h.file, trivial⟩

theorem Unbuffers.readText (h : Unbuffers exact s u) :
    Option.Rel (Token.Matches exact) s.readText.1 u.readText.1 ∧ Unbuffers exact s.readText.2 u.readText.2 := by
  simp only [Scanner.readText, Bufferless.readText, Cursor.text?, h.cursor, h.file]
  cases found : Lexeme.jsxText? s.cursor.rest with
  | none => exact ⟨.none, h⟩
  | some l =>
      have kind := Lexeme.jsxTextKind found
      simp only [Option.map_some, kind]
      exact ⟨.some ⟨rfl, rfl, fun _ => rfl⟩, rfl, h.lastEnd, h.mode, rfl, [], rfl, trivial⟩

theorem Unbuffers.rewind (h : Unbuffers exact s u) (mark : Checkpoint) :
    Unbuffers exact (s.rewind mark) (u.rewind mark) := ⟨rfl, rfl, h.mode, h.file, trivial⟩

theorem nothingSkipped (c : Cursor) :
    (Trivia.split c.rest).1.isEmpty = (c.skip.place.offset - c.place.offset == 0) := by
  have past := Place.pastOffset c.place (Trivia.raw (Trivia.split c.rest).1)
  simp only [Cursor.skip, past, Nat.add_sub_cancel_left]
  cases (Trivia.split c.rest).1 with
  | nil => rfl
  | cons p ps =>
      obtain ⟨first, more, piece⟩ := List.exists_cons_of_length_pos (Trivia.rawPos p)
      have positive := first.utf8Size_pos
      have bytes : Text.byteLength (Trivia.raw (p :: ps)) ≠ 0 := by
        rw [Trivia.raw, List.flatMap_cons, piece, List.cons_append, Text.byteLength]
        omega
      simp [bytes]

theorem skipTriviaOf (required : Bool) (s : Scanner) : s.skipTrivia required =
    let bytes := s.cursor.skip.place.offset - s.cursor.place.offset
    if Trivia.opensComment s.cursor.skip.rest || (required && bytes == 0) then (none, s)
    else (some bytes, { s with cursor := s.cursor.skip }) := by
  simp only [Scanner.skipTrivia, nothingSkipped]
  rfl

theorem Unbuffers.skipTrivia (h : Unbuffers false s u) (required : Bool) :
    (s.skipTrivia required).1 = (u.skipTrivia required).1 ∧
      Unbuffers false (s.skipTrivia required).2 (u.skipTrivia required).2 := by
  -- The tokens ahead stay though the cursor moves: beyond the trivia the same ones are found, without their comments.
  have beyond : Foreseen false { s with cursor := s.cursor.skip } u.text := by
    have foreseen := h.ahead
    cases pending : u.text with
    | none =>
        rw [pending] at foreseen
        exact freshSkip foreseen
    | some a =>
        rw [pending] at foreseen
        exact foreseen
  simp only [skipTriviaOf, Bufferless.skipTrivia, h.cursor]
  by_cases stays : (Trivia.opensComment s.cursor.skip.rest ||
      (required && s.cursor.skip.place.offset - s.cursor.place.offset == 0)) = true
  · simp only [if_pos stays]
    exact ⟨trivial, h⟩
  · simp only [if_neg stays]
    exact ⟨trivial, rfl, h.lastEnd, h.mode, h.file, beyond⟩

end Scanner

structure Session.Unbuffers (exact : Bool) (s : Session Scanner) (u : Session Bufferless) : Prop where
  scanner : Scanner.Unbuffers exact s.scanner u.scanner
  marks : u.marks = s.marks

namespace Session

variable {exact : Bool} {s : Session Scanner} {u : Session Bufferless}

theorem Unbuffers.ask (h : Unbuffers exact s u) {call : Call} (counts : exact = true → call.skips = false) :
    (Scanner.ask s call).1.Matches exact (Bufferless.ask u call).1 ∧
      Unbuffers exact (Scanner.ask s call).2 (Bufferless.ask u call).2 := by
  have scanner := h.scanner
  have marks := h.marks
  cases call with
  | current => exact ⟨scanner.current, scanner.foresees (Scanner.currentForesees _), marks⟩
  | peek => exact ⟨scanner.peek, scanner.foresees (Scanner.peekForesees _), marks⟩
  | advance => exact ⟨scanner.advance.1, scanner.advance.2, marks⟩
  | consume ps => exact ⟨(scanner.consume ps).1, (scanner.consume ps).2, marks⟩
  | atEnd => exact ⟨congrArg Answer.flag scanner.atEnd, scanner.foresees (Scanner.currentForesees _), marks⟩
  | setMode m => exact ⟨rfl, scanner.setMode m, marks⟩
  | readText => exact ⟨scanner.readText.1, scanner.readText.2, marks⟩
  | skipTrivia required =>
      -- Tokens ahead keep the comments that are skipped, so that only a comparison without comments survives.
      cases exact with
      | true => cases counts rfl
      | false =>
          obtain ⟨bytes, beyond⟩ := scanner.skipTrivia required
          exact ⟨congrArg Answer.bytes bytes, beyond, marks⟩
  | lastEnd => exact ⟨congrArg Answer.position scanner.lastEnd.symm, scanner, marks⟩
  | checkpoint =>
      have mark : u.scanner.checkpoint = s.scanner.checkpoint := by
        rw [Bufferless.checkpoint, Scanner.checkpoint, scanner.cursor, scanner.lastEnd]
      exact ⟨rfl, scanner, by simp only [Scanner.ask, Bufferless.ask, marks, mark]⟩
  | rewind i =>
      simp only [Scanner.ask, Bufferless.ask, marks]
      cases s.marks[i]? with
      | none => exact ⟨rfl, h⟩
      | some mark => exact ⟨rfl, scanner.rewind mark, rfl⟩

theorem Unbuffers.run (h : Unbuffers exact s u) {calls : List Call}
    (counts : exact = true → ∀ call ∈ calls, call.skips = false) :
    List.Forall₂ (Answer.Matches exact) (Session.run Scanner.ask calls s).1 (Session.run Bufferless.ask calls u).1 := by
  induction calls generalizing s u with
  | nil => exact .nil
  | cons call calls ih =>
      have first := h.ask fun exact => (List.forall_mem_cons.mp (counts exact)).1
      exact .cons first.1 (ih first.2 fun exact => (List.forall_mem_cons.mp (counts exact)).2)

end Session

/-- Lookahead is only a cache: whatever is asked, in whatever order, the scanner that keeps tokens answers like the one
that reads them afresh, with the same comments in front of the tokens unless trivia was skipped. -/
theorem Scanner.runUnbuffered (source : String) (file : Option String) (calls : List Call) :
    List.Forall₂ (Answer.Matches (!calls.any Call.skips)) (Session.run Scanner.ask calls (Scanner.session source file)).1
      (Session.run Bufferless.ask calls (Bufferless.session source file)).1 := by
  have starts : Session.Unbuffers (!calls.any Call.skips) (Scanner.session source file) (Bufferless.session source file) :=
    ⟨startUnbuffers source file, rfl⟩
  exact starts.run fun none call inside => by simpa using List.any_eq_false.mp (by simpa using none) call inside

end JsxTree
