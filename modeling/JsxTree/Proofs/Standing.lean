import JsxTree.Proofs.Lookahead

/-! Where a scanner stands. Once a token has been consumed it rests: the last end is the cursor.
Only a run of text that was read and not yet consumed, over which trivia may have been skipped,
leaves a scanner whose tokens ahead say nothing of the cursor; such a scanner is pending. -/
namespace JsxTree.Scanner

variable {file : Option String} {m m' : Mode} {c c' : Cursor} {s s' : Scanner} {a : Ahead}
  {ps : List String}

structure Stands (file : Option String) (m : Mode) (c : Cursor) (s : Scanner) : Prop where
  path : s.file = file
  mode : s.mode = m
  cursor : s.cursor = c
  ahead : Foretells file m c s.ahead
  behind : s.lastEnd ≤ c.position

structure Rests (file : Option String) (m : Mode) (c : Cursor) (s : Scanner) : Prop
    extends Stands file m c s where
  ended : s.lastEnd = c.position

theorem foretellsForeseen (ahead : Foretells s.file s.mode c s.ahead) (cursor : frontier s.cursor s.ahead =
    frontier c s.ahead) : Foretells s.file s.mode c s.readAhead.ahead := by
  rw [readAheadOf]
  cases found : lex? s.file s.mode (frontier s.cursor s.ahead) with
  | none => simpa using ahead
  | some a => exact foretellsMore ahead (by rw [← cursor]; exact lexAgrees found)

theorem Stands.foresees (h : Stands file m c s) (more : Foresees s s') : Stands file m c s' := by
  induction more with
  | refl => exact h
  | @more s' _ ih =>
      obtain ⟨cursor, lastEnd, mode, path⟩ := readAheadSame s'
      obtain ⟨rfl, rfl, rfl, ahead, behind⟩ := ih
      exact ⟨path, mode, cursor, foretellsForeseen ahead rfl, by rw [lastEnd]; exact behind⟩

theorem Rests.foresees (h : Rests file m c s) (more : Foresees s s') : Rests file m c s' :=
  ⟨h.toStands.foresees more, by rw [more.same.2.1]; exact h.ended⟩

theorem Stands.filled (h : Stands file m c s) (n : Nat) : n ≤ (s.fill n).ahead.length ∨
    (frontier c (s.fill n).ahead).next? m = none := by
  induction n with
  | zero => exact .inl (Nat.zero_le _)
  | succ n ih =>
      have before := h.foresees (fillForesees n s)
      simp only [fill]
      split
      · rename_i short
        rw [readAheadOf]
        obtain ⟨rfl, rfl, rfl, ahead, behind⟩ := before
        cases found : lex? (s.fill n).file (s.fill n).mode (frontier (s.fill n).cursor (s.fill n).ahead) with
        | none => exact .inr (by simpa using lexNone found)
        | some a =>
            cases ih with
            | inl enough => exact .inl (by simpa using enough)
            | inr ended => rw [(lexAgrees found).1] at ended; cases ended
      · rename_i enough
        exact .inl (by omega)

theorem Stands.current (h : Stands file m c s) : match s.current.1 with
    | none => c.next? m = none
    | some t => ∃ c', c.next? m = some (t.kind, c') ∧ t.span = c.spanTo c' file := by
  have ahead := (h.foresees (fillForesees 1 s)).ahead
  have filled := h.filled 1
  simp only [Scanner.current]
  cases tokens : (s.fill 1).ahead with
  | nil => simpa [tokens, frontier] using filled
  | cons a as =>
      rw [tokens] at ahead
      exact ⟨a.after, ahead.1.1, ahead.1.2⟩

theorem currentForesees (s : Scanner) : Foresees s s.current.2 := fillForesees 1 s

theorem peekForesees (s : Scanner) : Foresees s s.peek.2 := fillForesees 2 s

theorem Stands.peek (h : Stands file m c s) : s.peek.1.map (·.kind) =
    (c.next? m).bind fun (_, c') => (c'.next? m).map Prod.fst := by
  have ahead := (h.foresees (fillForesees 2 s)).ahead
  have filled := h.filled 2
  simp only [Scanner.peek]
  match tokens : (s.fill 2).ahead with
  | [] => simp_all [frontier]
  | [a] =>
      rw [tokens] at ahead
      simp_all [frontier, ahead.1.1]
  | a :: b :: as =>
      rw [tokens] at ahead
      simp [ahead.1.1, ahead.2.1.1]

theorem Stands.advance (h : Stands file m c s) : match s.advance with
    | (none, s') => c.next? m = none ∧ Foresees s s'
    | (some t, s') => ∃ c', c.next? m = some (t.kind, c') ∧ t.span = c.spanTo c' file ∧
        Rests file m c' s' := by
  have filled := h.foresees (fillForesees 1 s)
  have enough := h.filled 1
  have ahead := filled.ahead
  simp only [Scanner.advance]
  cases tokens : (s.fill 1).ahead with
  | nil => exact ⟨by simpa [tokens, frontier] using enough, fillForesees 1 s⟩
  | cons a as =>
      rw [tokens] at ahead
      obtain ⟨⟨next, span⟩, more⟩ := ahead
      have ended : a.token.span.stop = a.after.position := by rw [span]; rfl
      exact ⟨a.after, next, span, ⟨filled.path, filled.mode, rfl, more, ended ▸ Position.leRefl _⟩, ended⟩

theorem advanceCurrent (s : Scanner) : s.current.2.advance = s.advance := by
  have again : (s.fill 1).fill 1 = s.fill 1 := by
    cases ahead : s.ahead with
    | nil => rw [fillOne s, if_pos ahead, fillOneReadAhead ahead, fillOne, if_pos ahead]
    | cons a as => rw [fillOne s, if_neg (by simp [ahead]), fillOne, if_neg (by simp [ahead])]
  simp only [Scanner.advance, Scanner.current, again]

theorem Stands.consume (h : Stands file m c s) (ps : List String) : match s.consume ps with
    | (none, s') => c.Stops ps m ∧ Foresees s s'
    | (some t, s') => ∃ p ∈ ps, ∃ c', c.next? m = some (.punctuator p, c') ∧ t.kind = .punctuator p ∧
        t.span = c.spanTo c' file ∧ Rests file m c' s' := by
  have first := h.current
  have rest := h.advance
  rw [← advanceCurrent] at rest
  cases token : s.current.1 with
  | none =>
      rw [token] at first
      simp only [Scanner.consume, token, Option.any_none, Bool.false_eq_true, if_false]
      exact ⟨fun p c' next => (by rw [first] at next; cases next), currentForesees s⟩
  | some t =>
      rw [token] at first
      obtain ⟨c', next, span⟩ := first
      simp only [Scanner.consume, token, Option.any_some]
      by_cases fits : ps.any t.isPunctuator = true
      · obtain ⟨p, member, kind⟩ := List.any_eq_true.mp fits
        rw [Token.isPunctuatorIff] at kind
        simp only [fits, if_true]
        cases taken : s.current.2.advance with
        | mk t' s' =>
            rw [taken] at rest
            cases t' with
            | none => rw [next] at rest; cases rest.1
            | some t' =>
                obtain ⟨c'', next', span', rests⟩ := rest
                rw [next, Option.some.injEq, Prod.mk.injEq] at next'
                obtain ⟨kind', rfl⟩ := next'
                exact ⟨p, member, c', by rw [next, kind], by rw [← kind', kind], span', rests⟩
      · simp only [fits]
        refine ⟨fun p c'' next' member => fits (List.any_eq_true.mpr ⟨p, member, ?_⟩), currentForesees s⟩
        rw [next, Option.some.injEq, Prod.mk.injEq] at next'
        exact Token.isPunctuatorIff.mpr next'.1

theorem Stands.readText (h : Stands file m c s) : match s.readText with
    | (none, s') => c.text? = none ∧ s' = s
    | (some t, s') => ∃ text c', c.text? = some (text, c') ∧
        t = ⟨.jsxText text, [], c.position, c'.position, file⟩ ∧ s' = { s with ahead := [⟨t, c'⟩] } := by
  obtain ⟨rfl, -, rfl, -, -⟩ := h
  simp only [Scanner.readText, Cursor.text?]
  cases found : Lexeme.jsxText? s.cursor.rest with
  | none => exact ⟨rfl, rfl⟩
  | some l =>
      exact ⟨_, _, rfl, by rw [Lexeme.jsxTextKind found]; rfl, rfl⟩

theorem Stands.setMode (h : Stands file m c s) (m' : Mode) : Stands file m' c (s.setMode m') := by
  obtain ⟨rfl, rfl, rfl, ahead, behind⟩ := h
  unfold Scanner.setMode
  split
  · rename_i same
    subst same
    exact ⟨rfl, rfl, rfl, ahead, behind⟩
  · exact ⟨rfl, rfl, rfl, trivial, behind⟩

theorem setModeLastEnd (m : Mode) (s : Scanner) : (s.setMode m).lastEnd = s.lastEnd := by
  unfold Scanner.setMode; split <;> rfl

theorem Rests.setMode (h : Rests file m c s) (m' : Mode) : Rests file m' c (s.setMode m') :=
  ⟨h.toStands.setMode m', by rw [setModeLastEnd]; exact h.ended⟩

structure Pending (s : Scanner) : Prop where
  text : ∃ a as raw, s.ahead = a :: as ∧ a.token.kind = .jsxText raw ∧
    a.token.span.stop = a.after.position ∧ Foretells s.file s.mode a.after as
  behind : s.lastEnd ≤ s.cursor.position

def Valid (s : Scanner) : Prop := s.Stands s.file s.mode s.cursor ∨ s.Pending

theorem Stands.valid (h : Stands file m c s) : s.Valid := by
  obtain ⟨rfl, rfl, rfl, ahead, behind⟩ := h
  exact .inl ⟨rfl, rfl, rfl, ahead, behind⟩

theorem Valid.behind (h : s.Valid) : s.lastEnd ≤ s.cursor.position := by
  cases h with
  | inl stands => exact stands.behind
  | inr pending => exact pending.behind

theorem startValid (source : String) (file : Option String) : (start source file).Valid :=
  .inl ⟨rfl, rfl, rfl, trivial, Position.leRefl _⟩

theorem Pending.readAhead (h : s.Pending) : s.readAhead.Pending := by
  obtain ⟨⟨a, as, raw, ahead, kind, stop, more⟩, behind⟩ := h
  obtain ⟨cursor, lastEnd, mode, path⟩ := readAheadSame s
  have same : frontier s.cursor s.ahead = frontier a.after as := by rw [ahead]; rfl
  refine ⟨?_, by rw [cursor, lastEnd]; exact behind⟩
  rw [path, mode, readAheadOf, ahead, ← ahead, same]
  cases found : lex? s.file s.mode (frontier a.after as) with
  | none => exact ⟨a, as, raw, by simp [ahead], kind, stop, more⟩
  | some b =>
      exact ⟨a, as ++ [b], raw, by simp [ahead], kind, stop, foretellsMore more (lexAgrees found)⟩

theorem Pending.foresees (h : s.Pending) (more : Foresees s s') : s'.Pending := by
  induction more with
  | refl => exact h
  | more _ ih => exact ih.readAhead

theorem Valid.foresees (h : s.Valid) (more : Foresees s s') : s'.Valid := by
  cases h with
  | inl stands => exact (stands.foresees more).valid
  | inr pending => exact .inr (pending.foresees more)

theorem Pending.advance (h : s.Pending) : s.advance.2.Valid := by
  obtain ⟨⟨a, as, raw, ahead, kind, stop, more⟩, behind⟩ := h
  rw [advanceCons ahead]
  exact .inl ⟨rfl, rfl, rfl, more, by rw [stop]; exact Position.leRefl _⟩

theorem Valid.advance (h : s.Valid) : s.advance.2.Valid := by
  cases h with
  | inr pending => exact pending.advance
  | inl stands =>
      have step := stands.advance
      generalize s.advance = r at *
      obtain ⟨t, s'⟩ := r
      cases t with
      | none => exact (stands.foresees step.2).valid
      | some t =>
          obtain ⟨c', -, -, rests⟩ := step
          exact rests.toStands.valid

theorem Valid.consume (h : s.Valid) (ps : List String) : (s.consume ps).2.Valid := by
  have current := h.foresees (currentForesees s)
  simp only [Scanner.consume]
  split
  · exact current.advance
  · exact current

theorem Valid.readText (h : s.Valid) : s.readText.2.Valid := by
  have behind := h.behind
  cases read : Lexeme.jsxText? s.cursor.rest with
  | none => simpa only [Scanner.readText, read] using h
  | some l =>
      simp only [Scanner.readText, read]
      exact .inr ⟨⟨_, [], _, rfl, Lexeme.jsxTextKind read, rfl, trivial⟩, behind⟩

theorem foretellsSkip {as : List Ahead} (h : Foretells file m c as) : Foretells file m c.skip as := by
  cases as with
  | nil => trivial
  | cons a as =>
      obtain ⟨⟨next, span⟩, more⟩ := h
      exact ⟨⟨by rw [Cursor.nextSkip]; exact next, by rw [span, Cursor.spanTo, Cursor.spanTo,
        Cursor.skipSkip]⟩, more⟩

theorem skipTriviaSame (required : Bool) (s : Scanner) : (s.skipTrivia required).2 = s ∨
    (s.skipTrivia required).2 = { s with cursor := s.cursor.skip } := by
  simp only [Scanner.skipTrivia]
  split
  · exact .inl rfl
  · exact .inr rfl

theorem Valid.skipTrivia (h : s.Valid) (required : Bool) : (s.skipTrivia required).2.Valid := by
  have farther := s.cursor.reachesSkip.position
  obtain same | moved := skipTriviaSame required s
  · rw [same]; exact h
  · rw [moved]
    cases h with
    | inl stands =>
        exact .inl ⟨rfl, rfl, rfl, foretellsSkip stands.ahead, Position.leTrans stands.behind farther⟩
    | inr pending => exact .inr ⟨pending.text, Position.leTrans pending.behind farther⟩

theorem Valid.setMode (h : s.Valid) (m : Mode) : (s.setMode m).Valid := by
  unfold Scanner.setMode
  split
  · exact h
  · exact .inl ⟨rfl, rfl, rfl, trivial, h.behind⟩

theorem Valid.rewind (h : s.Valid) (s' : Scanner) : (s'.rewind s.checkpoint).Valid :=
  .inl ⟨rfl, rfl, rfl, trivial, h.behind⟩

end JsxTree.Scanner
