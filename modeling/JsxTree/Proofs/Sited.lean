import JsxTree.Proofs.Positions

/-! Stretches of a source. Whatever a scanner holds lies in the source between counted positions, and so do the nodes that
a parse makes of it. -/
namespace JsxTree

variable {source : String} {file : Option String}

structure Span.Sited (source : String) (file : Option String) (s : Span) : Prop where
  path : s.file = file
  start : Counted source s.start
  stop : Counted source s.stop
  ordered : s.start ≤ s.stop

structure Token.Sited (source : String) (file : Option String) (t : Token) : Prop where
  span : t.span.Sited source file
  comments : ∀ c ∈ t.comments, c.span.Sited source file

theorem Cursor.Reaches.sited {a b : Cursor} (h : a.Reaches b) (within : a.Within source) :
    Span.Sited source file ⟨a.position, b.position, file⟩ :=
  ⟨rfl, within.counted, (h.within within).counted, h.position⟩

theorem Trivia.commentsSited {ps : List Piece} {rest : List Char} {c : Cursor} (within : c.Within source)
    (ahead : c.rest = raw ps ++ rest) : ∀ comment ∈ comments file c.place ps, comment.span.Sited source file := by
  induction ps generalizing c with
  | nil => exact List.forall_mem_nil _
  | cons p ps ih =>
      have split : c.rest = p.raw ++ (raw ps ++ rest) := by rw [ahead, raw, List.flatMap_cons, List.append_assoc]; rfl
      have reached : c.Reaches ⟨c.place.past p.raw, raw ps ++ rest⟩ := ⟨p.raw, split, rfl⟩
      have more := ih (reached.within within) rfl
      have own : Span.Sited source file ⟨c.position, (c.place.past p.raw).position, file⟩ := reached.sited within
      cases p with
      | blank c => exact more
      | line text => exact List.forall_mem_cons.mpr ⟨own, more⟩
      | block text => exact List.forall_mem_cons.mpr ⟨own, more⟩

namespace Scanner

variable {m : Mode} {c : Cursor} {s s' : Scanner} {a : Ahead}

structure Ahead.Sited (source : String) (file : Option String) (a : Ahead) : Prop where
  token : a.token.Sited source file
  after : a.after.Within source

theorem lexSited (within : c.Within source) (h : lex? file m c = some a) : a.Sited source file := by
  obtain ⟨next, span⟩ := lexAgrees h
  have skipped := c.reachesSkip.within within
  refine ⟨⟨?_, ?_⟩, (Cursor.nextReaches next).within within⟩
  · rw [span]
    exact (Cursor.skipReaches next).sited skipped
  · simp only [lex?, Option.map_eq_some_iff] at h
    obtain ⟨l, -, rfl⟩ := h
    exact Trivia.commentsSited within (Trivia.splitSplits c.rest)

structure Sited (source : String) (file : Option String) (s : Scanner) : Prop where
  path : s.file = file
  cursor : s.cursor.Within source
  lastEnd : Counted source s.lastEnd
  ahead : ∀ a ∈ s.ahead, a.Sited source file

theorem startSited (source : String) (file : Option String) : (start source file).Sited source file :=
  ⟨rfl, Cursor.startWithin source, originCounted source, List.forall_mem_nil _⟩

theorem frontierWithin {as : List Ahead} (cursor : c.Within source) (ahead : ∀ a ∈ as, a.Sited source file) :
    (frontier c as).Within source := by
  induction as generalizing c with
  | nil => exact cursor
  | cons a as ih =>
      obtain ⟨first, others⟩ := List.forall_mem_cons.mp ahead
      exact ih first.after others

theorem Sited.readAhead (h : s.Sited source file) : s.readAhead.Sited source file := by
  obtain ⟨rfl, cursor, lastEnd, ahead⟩ := h
  rw [readAheadOf]
  refine ⟨rfl, cursor, lastEnd, fun a inside => ?_⟩
  obtain already | new := List.mem_append.mp inside
  · exact ahead a already
  · exact lexSited (frontierWithin cursor ahead) (Option.mem_toList.mp new)

theorem Sited.foresees (h : s.Sited source file) (more : Foresees s s') : s'.Sited source file := by
  induction more with
  | refl => exact h
  | more _ ih => exact ih.readAhead

def Hands (source : String) (file : Option String) (r : Option Token × Scanner) : Prop :=
  r.2.Sited source file ∧ ∀ t ∈ r.1, t.Sited source file

theorem Sited.nth (h : s.Sited source file) (i : Nat) : ∀ t ∈ s.ahead[i]?.map (·.token), t.Sited source file := by
  intro t same
  obtain ⟨a, found, rfl⟩ := Option.map_eq_some_iff.mp same
  exact (h.ahead a (List.mem_of_getElem? found)).token

theorem Sited.current (h : s.Sited source file) : Hands source file s.current := by
  have filled := h.foresees (fillForesees 1 s)
  exact ⟨filled, filled.nth 0⟩

theorem Sited.peek (h : s.Sited source file) : Hands source file s.peek := by
  have filled := h.foresees (fillForesees 2 s)
  exact ⟨filled, filled.nth 1⟩

theorem Sited.advance (h : s.Sited source file) : Hands source file s.advance := by
  have filled := h.foresees (fillForesees 1 s)
  simp only [Scanner.advance]
  cases ahead : (s.fill 1).ahead with
  | nil => exact ⟨filled, fun _ no => by cases no⟩
  | cons a as =>
      obtain ⟨first, others⟩ := List.forall_mem_cons.mp (ahead ▸ filled.ahead)
      exact ⟨⟨filled.path, first.after, first.token.span.stop, others⟩, fun t same => Option.some.inj same ▸ first.token⟩

theorem Sited.consume (h : s.Sited source file) (ps : List String) : Hands source file (s.consume ps) := by
  have current := h.current.1
  simp only [Scanner.consume]
  split
  · exact current.advance
  · exact ⟨current, fun _ no => by cases no⟩

theorem Sited.readText (h : s.Sited source file) : Hands source file s.readText := by
  simp only [Scanner.readText]
  cases found : Lexeme.jsxText? s.cursor.rest with
  | none => exact ⟨h, fun _ no => by cases no⟩
  | some l =>
      have reached : s.cursor.Reaches ⟨s.cursor.place.past l.raw, l.rest⟩ :=
        ⟨l.raw, (Lexeme.jsxTextCuts found).splits, rfl⟩
      have own : Token.Sited source file ⟨l.kind, [], s.cursor.position, (s.cursor.place.past l.raw).position, s.file⟩ :=
        ⟨h.path ▸ reached.sited h.cursor, List.forall_mem_nil _⟩
      refine ⟨⟨h.path, h.cursor, h.lastEnd, ?_⟩, fun t same => Option.some.inj same ▸ own⟩
      exact List.forall_mem_singleton.mpr ⟨own, reached.within h.cursor⟩

theorem Sited.setMode (h : s.Sited source file) (m : Mode) : (s.setMode m).Sited source file := by
  unfold Scanner.setMode
  split
  · exact h
  · exact ⟨h.path, h.cursor, h.lastEnd, List.forall_mem_nil _⟩

theorem Sited.skipTrivia (h : s.Sited source file) (required : Bool) : (s.skipTrivia required).2.Sited source file := by
  obtain same | moved := skipTriviaSame required s
  · rw [same]
    exact h
  · rw [moved]
    exact ⟨h.path, s.cursor.reachesSkip.within h.cursor, h.lastEnd, h.ahead⟩

theorem Sited.rewind (h : s.Sited source file) {mark : Checkpoint} (cursor : mark.cursor.Within source)
    (lastEnd : Counted source mark.lastEnd) : (s.rewind mark).Sited source file :=
  ⟨h.path, cursor, lastEnd, List.forall_mem_nil _⟩

end Scanner

theorem Laid.sited {a b : Cursor} {n : Node} (h : Laid file a [n] b) (within : a.Within source) :
    n.span.Sited source file := by
  cases h with
  | cons gap inside _ _ _ => exact inside.sited (gap.within within)

theorem parseTreeSited {config : Config} {n : Node} (accepted : parse source config file = .ok n) :
    ∀ m ∈ n.preorder, m.span.Sited source file := by
  have read := Grammar.parseReads source config file
  rw [accepted] at read
  obtain ⟨c', reads, -⟩ := read
  have whole : Laid file (.start source) [n] c' := reads.laid
  exact @Node.everywhereOf (fun m => m.span.Sited source file) (fun m => ∃ s e, s.Within source ∧ Laid file s [m] e)
    (fun m ⟨s, e, within, laid⟩ => ⟨laid.sited within, (laid.wellPlaced within).2⟩) n
    ⟨.start source, c', Cursor.startWithin source, whole⟩

end JsxTree
