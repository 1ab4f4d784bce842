import JsxTree.Proofs.Lexing

/-! Scanner states. A scanner stands at a cursor when the tokens it has read ahead are those found
there, up to comments that were skipped since. What it delivers does not depend on how far it has
read ahead. -/
namespace JsxTree.Scanner

variable {file : Option String} {m : Mode} {c c' : Cursor} {s s' : Scanner} {a : Ahead}
  {k : Token.Kind} {ps : List String}

def Agrees (file : Option String) (m : Mode) (c : Cursor) (a : Ahead) : Prop :=
  c.next? m = some (a.token.kind, a.after) ∧ a.token.span = c.spanTo a.after file

def Foretells (file : Option String) (m : Mode) : Cursor → List Ahead → Prop
  | _, [] => True
  | c, a :: as => Agrees file m c a ∧ Foretells file m a.after as

theorem lexAgrees (h : lex? file m c = some a) : Agrees file m c a := by
  simp only [lex?, Option.map_eq_some_iff] at h
  obtain ⟨l, found, rfl⟩ := h
  exact ⟨by simp [Cursor.next?, Cursor.skip, found], rfl⟩

theorem lexNone (h : lex? file m c = none) : c.next? m = none := by
  simp only [lex?, Option.map_eq_none_iff] at h
  simp [Cursor.next?, Cursor.skip, h]

def frontier : Cursor → List Ahead → Cursor
  | c, [] => c
  | _, a :: as => frontier a.after as

theorem frontierLast (c : Cursor) (as : List Ahead) :
    frontier c as = (as.getLast?.map (·.after)).getD c := by
  induction as generalizing c with
  | nil => rfl
  | cons a as ih =>
      rw [frontier, ih, List.getLast?_cons]
      cases as.getLast? <;> rfl

def Linked (P : Cursor → Ahead → Prop) : Cursor → List Ahead → Prop
  | _, [] => True
  | c, a :: as => P c a ∧ Linked P a.after as

theorem linkedMore {P : Cursor → Ahead → Prop} {as : List Ahead} (h : Linked P c as) (more : P (frontier c as) a) :
    Linked P c (as ++ [a]) := by
  induction as generalizing c with
  | nil => exact ⟨more, trivial⟩
  | cons b bs ih => exact ⟨h.1, ih h.2 more⟩

theorem foretellsMore {as : List Ahead} (h : Foretells file m c as)
    (more : Agrees file m (frontier c as) a) : Foretells file m c (as ++ [a]) := by
  induction as generalizing c with
  | nil => exact ⟨more, trivial⟩
  | cons b bs ih => exact ⟨h.1, ih h.2 more⟩

inductive Foresees : Scanner → Scanner → Prop where
  | refl (s : Scanner) : Foresees s s
  | more {s s' : Scanner} (before : Foresees s s') : Foresees s s'.readAhead

theorem Foresees.trans {s s' s'' : Scanner} (h : Foresees s s') (h' : Foresees s' s'') :
    Foresees s s'' := by
  induction h' with
  | refl => exact h
  | more _ ih => exact .more ih

theorem fillForesees (n : Nat) (s : Scanner) : Foresees s (s.fill n) := by
  induction n with
  | zero => exact .refl s
  | succ n ih =>
      simp only [fill]
      split
      · exact .more ih
      · exact ih

theorem readAheadSame (s : Scanner) : s.readAhead.cursor = s.cursor ∧ s.readAhead.lastEnd = s.lastEnd ∧
    s.readAhead.mode = s.mode ∧ s.readAhead.file = s.file := by
  simp only [readAhead]
  split <;> exact ⟨rfl, rfl, rfl, rfl⟩

theorem Foresees.same (h : Foresees s s') : s'.cursor = s.cursor ∧ s'.lastEnd = s.lastEnd ∧
    s'.mode = s.mode ∧ s'.file = s.file := by
  induction h with
  | refl => exact ⟨rfl, rfl, rfl, rfl⟩
  | @more s' _ ih =>
      obtain ⟨cursor, lastEnd, mode, file⟩ := readAheadSame s'
      exact ⟨cursor.trans ih.1, lastEnd.trans ih.2.1, mode.trans ih.2.2.1, file.trans ih.2.2.2⟩

theorem fillOne (s : Scanner) : s.fill 1 = if s.ahead = [] then s.readAhead else s := by
  cases h : s.ahead <;> simp [fill, h]

theorem readAheadOf (s : Scanner) :
    s.readAhead = { s with ahead := s.ahead ++ (lex? s.file s.mode (frontier s.cursor s.ahead)).toList } := by
  simp only [readAhead, frontierLast]
  split
  · rename_i found; rw [found]; rfl
  · rename_i found; rw [found]; simp

theorem fillOneReadAhead {s : Scanner} (h : s.ahead = []) : s.readAhead.fill 1 = s.fill 1 := by
  rw [fillOne s, if_pos h, fillOne]
  split
  · rename_i still
    rw [readAheadOf, h] at still
    cases found : lex? s.file s.mode (frontier s.cursor []) with
    | none => simp [readAheadOf, h, found]
    | some a => simp [found] at still
  · rfl

def upcoming : Nat → Scanner → List Token
  | 0, _ => []
  | n + 1, s =>
      match s.advance with
      | (none, _) => []
      | (some t, s') => t :: s'.upcoming n

theorem advanceCons {as : List Ahead} (h : s.ahead = a :: as) : s.advance =
    (some a.token, { s with cursor := a.after, lastEnd := a.token.span.stop, ahead := as }) := by
  have filled : s.fill 1 = s := by rw [fillOne, if_neg (by simp [h])]
  simp only [advance, filled, h]

theorem advanceReadAhead (s : Scanner) :
    s.readAhead.advance.1 = s.advance.1 ∧ Foresees s.advance.2 s.readAhead.advance.2 := by
  cases ahead : s.ahead with
  | nil =>
      simp only [advance, fillOneReadAhead ahead]
      exact ⟨trivial, .refl _⟩
  | cons b bs =>
      have later := Foresees.more (Foresees.refl { s with
        cursor := b.after, lastEnd := b.token.span.stop, ahead := bs })
      rw [advanceCons ahead, readAheadOf s, ahead, List.cons_append, advanceCons rfl]
      rw [readAheadOf] at later
      exact ⟨rfl, later⟩

theorem Foresees.advance (h : Foresees s s') :
    s'.advance.1 = s.advance.1 ∧ Foresees s.advance.2 s'.advance.2 := by
  induction h with
  | refl => exact ⟨rfl, .refl _⟩
  | @more s' _ ih =>
      have step := advanceReadAhead s'
      exact ⟨step.1.trans ih.1, ih.2.trans step.2⟩

theorem Foresees.upcoming (h : Foresees s s') (n : Nat) : s'.upcoming n = s.upcoming n := by
  induction n generalizing s s' with
  | zero => rfl
  | succ n ih =>
      obtain ⟨token, state⟩ := h.advance
      have rest := ih state
      simp only [Scanner.upcoming]
      generalize s'.advance = r' at *
      generalize s.advance = r at *
      obtain ⟨t', u'⟩ := r'
      obtain ⟨t, u⟩ := r
      simp only at token rest
      subst token
      cases t' with
      | none => rfl
      | some t => simp only [rest]

end JsxTree.Scanner
