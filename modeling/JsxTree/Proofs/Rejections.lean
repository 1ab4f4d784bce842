import JsxTree.Proofs.Limits
import JsxTree.Proofs.Lossless
import JsxTree.Proofs.Naming
import JsxTree.Proofs.Seams
import JsxTree.Proofs.Sited
import JsxTree.Proofs.Watched

/-! Rejections. Whatever a parse fails for is there in the source: the token that does not fit, or that is none, where it is
said to be, nothing but trivia behind the end, and two tags under different names, the one behind the other. -/
namespace JsxTree

namespace Trivia

/-- Trivia up to the end, or up to a comment that is never closed. -/
def Trails (cs : List Char) : Prop := ∃ gap rest, cs = gap ++ rest ∧ IsTrivia gap rest ∧
  (rest = [] ∨ ∃ body, rest = '/' :: '*' :: body ∧ ¬['*', '/'] <:+: body)

variable {cs : List Char}

theorem splitBlockNone (h : splitBlock cs = none) : ¬['*', '/'] <:+: cs := by
  fun_induction splitBlock cs with
  | case1 => simp
  | case2 => cases h
  | case3 c cs unclosed ih =>
      intro inside
      obtain front | later := List.infix_cons_iff.mp inside
      · obtain ⟨rfl, more⟩ := List.cons_prefix_cons.mp front
        obtain ⟨rest, same⟩ := more
        exact unclosed rest rfl same.symm
      · exact ih (Option.map_eq_none_iff.mp h) later

theorem trailsEnd (h : (split cs).2 = []) : Trails cs := by
  exact ⟨raw (split cs).1, (split cs).2, splitSplits cs, splitIsTrivia cs, .inl h⟩

theorem trailsUnclosed (h : opensComment (split cs).2 = true) : Trails cs := by
  have stopped := splitMaximal cs
  unfold opensComment at h
  split at h
  · rename_i body rest
    rw [rest, splitPiece] at stopped
    exact ⟨raw (split cs).1, (split cs).2, splitSplits cs, splitIsTrivia cs,
      .inr ⟨body, rest, splitBlockNone (Option.map_eq_none_iff.mp stopped)⟩⟩
  · cases h

end Trivia

variable {source : String} {file : Option String} {m : Mode} {a b c c' : Cursor} {s s' : Scanner} {p : Parser}

def Span.Seated (source : String) (file : Option String) (s : Span) : Prop :=
  ∃ c c' : Cursor, c.Within source ∧ c.Unsplit ∧ c.Reaches c' ∧ s = ⟨c.position, c'.position, file⟩

namespace ParseError

def spans (e : ParseError) : List Span := e.span :: e.notes.filterMap (·.span)

inductive Mismatch (source : String) (file : Option String) (opening closing : String) (e : ParseError) : Prop where
  | tags {own other : Node} {a b c d d₁ d₂ d' : Cursor} {note : Note} {notes : List Note} (within : a.Within source)
      (opens : a.Takes .jsx "<" b) (name : Grammar.ReadsName file true own b c) (later : c.Reaches d)
      (closes : d.Takes .jsx "<" d₁) (slash : d₁.Takes .jsx "/" d₂)
      (closingName : Grammar.ReadsName file true other d₂ d') (written : own.nameText = some opening)
      (closingWritten : other.nameText = some closing) (differ : opening ≠ closing) (span : e.span = d₂.spanTo d' file)
      (noted : e.notes = note :: notes) (pointed : note.span = some (b.spanTo c file))
      (before : c.position ≤ d₂.skip.position)

/-- The cause of an error in the source, where the last token consumed ended at `last`. -/
def Founded (source : String) (file : Option String) (last : Position) (e : ParseError) : Prop :=
  match e.kind with
  | .unexpectedToken found => e.span.start.offset < e.span.stop.offset ∧
      Text.slice e.span.start.offset e.span.stop.offset source.toList = some found.toList
  | .unexpectedEnd => e.span.start = last ∧ e.span.stop = last ∧
      ∃ front back, source.toList = front ++ back ∧ Text.byteLength front = last.offset ∧ Trivia.Trails back
  | .mismatchedClosingTag opening closing => e.Mismatch source file opening closing
  | .invalidToken => ∃ m c a raw, c.Within source ∧ Scanner.lex? file m c = some a ∧
      a.token.kind = .invalid raw e.message ∧ a.token.span = e.span
  | .depthExceeded _ => True
  | .other => False

structure Told (source : String) (file : Option String) (last : Position) (e : ParseError) : Prop where
  spans : ∀ span ∈ e.spans, span.Sited source file ∧ span.stop.offset ≤ Text.byteLength source.toList
  cause : e.Founded source file last

end ParseError

section Spans

theorem Span.Seated.told {span : Span} (h : span.Seated source file) :
    span.Sited source file ∧ span.stop.offset ≤ Text.byteLength source.toList := by
  obtain ⟨c, c', within, -, reaches, rfl⟩ := h
  exact ⟨reaches.sited within, Text.boundaryLength (reaches.within within).boundary⟩

theorem seatedHere (within : c.Within source) (unsplit : c.Unsplit) (file : Option String) :
    Span.Seated source file ⟨c.position, c.position, file⟩ := ⟨c, c, within, unsplit, c.reachesRefl, rfl⟩

theorem seatedToken (within : c.Within source) (reaches : c.skip.Reaches c') : (c.spanTo c' file).Seated source file :=
  ⟨c.skip, c', c.reachesSkip.within within, c.skipUnsplit, reaches, rfl⟩

theorem Grammar.ReadsMembers.span {object n : Node} (h : ReadsMembers file object c n c')
    (own : object.span = a.spanTo c file) : n.span = a.spanTo c' file := by
  induction h with
  | stop => exact own
  | @step object c c₁ c₂ _ _ _ _ _ _ ih =>
      refine ih ?_
      rw [Node.spanUpTo, own]
      rfl

theorem Grammar.ReadsName.span {chained : Bool} {n : Node} (h : ReadsName file chained n c c') :
    n.span = c.spanTo c' file := by
  cases h with
  | simple | namespaced => rfl
  | chain _ _ members => exact members.span rfl

theorem Grammar.ReadsName.skipReaches {chained : Bool} {n : Node} (h : ReadsName file chained n c c') : c.skip.Reaches c' := by
  cases h with
  | simple own => exact Cursor.skipReaches own
  | chain own _ members => exact (Cursor.skipReaches own).trans members.reaches
  | namespaced space colon own =>
      exact (Cursor.skipReaches space).trans ((Cursor.nextReaches colon).trans (Cursor.nextReaches own))

end Spans

namespace Scanner

structure Poised (source : String) (file : Option String) (m : Mode) (b : Cursor) (s : Scanner) : Prop where
  rests : s.Rests file m s.cursor
  begun : b.Within source
  passed : b.Reaches s.cursor
  unsplit : s.cursor.Unsplit

theorem Poised.within (h : s.Poised source file m b) : s.cursor.Within source := h.passed.within h.begun

theorem startPoised (source : String) (file : Option String) :
    (start source file).Poised source file .script (.start source) :=
  ⟨⟨⟨rfl, rfl, rfl, trivial, Position.leRefl _⟩, rfl⟩, Cursor.startWithin source, Cursor.reachesRefl _,
    Cursor.startUnsplit source⟩

theorem Poised.stays (h : s.Poised source file m b) {m' : Mode} (rests : s'.Rests file m' s.cursor) :
    s'.Poised source file m' b := by
  have same := rests.cursor
  rw [← same] at rests
  refine ⟨rests, h.begun, ?_, ?_⟩
  · rw [same]
    exact h.passed
  · rw [same]
    exact h.unsplit

theorem Poised.foresees (h : s.Poised source file m b) (more : Foresees s s') : s'.Poised source file m b :=
  h.stays (h.rests.foresees more)

theorem Poised.setMode (h : s.Poised source file m b) (m' : Mode) : (s.setMode m').Poised source file m' b :=
  h.stays (h.rests.setMode m')

theorem Poised.advance (h : s.Poised source file m b) : s.advance.2.Poised source file m b := by
  have step := h.rests.toStands.advance
  generalize s.advance = r at *
  obtain ⟨t, s'⟩ := r
  cases t with
  | none => exact h.foresees step.2
  | some t =>
      obtain ⟨c', next, -, rests⟩ := step
      obtain rfl := rests.cursor
      exact ⟨rests, h.begun, h.passed.trans (Cursor.nextReaches next), Cursor.nextUnsplit next⟩

theorem Poised.text (h : s.Poised source file m b) : s.readText.2.advance.2.Poised source file m b := by
  have read := h.rests.toStands.readText
  generalize s.readText = r at *
  obtain ⟨t, s'⟩ := r
  cases t with
  | none =>
      obtain ⟨-, rfl⟩ := read
      exact h.advance
  | some t =>
      obtain ⟨text, c', found, rfl, rfl⟩ := read
      rw [advanceCons rfl]
      exact ⟨⟨⟨h.rests.path, h.rests.mode, rfl, trivial, Position.leRefl _⟩, rfl⟩, h.begun,
        h.passed.trans (Cursor.textTraces found).1.reaches, Cursor.textUnsplit found⟩

theorem lexOf {k : Token.Kind} (next : c.next? m = some (k, c')) :
    ∃ a, lex? file m c = some a ∧ a.token.kind = k ∧ a.token.span = c.spanTo c' file := by
  cases found : lex? file m c with
  | none =>
      rw [lexNone found] at next
      cases next
  | some a =>
      obtain ⟨next', span⟩ := lexAgrees found
      rw [next, Option.some.injEq, Prod.mk.injEq] at next'
      obtain ⟨rfl, rfl⟩ := next'
      exact ⟨a, rfl, rfl, span⟩

end Scanner

namespace Parser

section Causes

variable {bad : ParseError → Parser → Prop}

def Finds (file : Option String) (m : Mode) (c : Cursor) : Option Token → Prop
  | none => Trivia.Trails c.rest
  | some t => ∃ c', c.next? m = some (t.kind, c') ∧ t.span = c.spanTo c' file

theorem foundUnclosed (unclosed : Trivia.opensComment p.scanner.cursor.skip.rest = true) : found p = .ok none p := by
  change Trivia.opensComment (Trivia.split p.scanner.cursor.rest).2 = true at unclosed
  simp only [found, bind, EStateM.bind, scan, Scanner.skipTrivia, unclosed, Bool.true_or, if_true]
  rfl

def skipped (p : Parser) : Parser := { p with scanner := { p.scanner with cursor := p.scanner.cursor.skip } }

theorem foundPast (clear : Trivia.opensComment p.scanner.cursor.skip.rest = false) : found p = current p.skipped := by
  change Trivia.opensComment (Trivia.split p.scanner.cursor.rest).2 = false at clear
  simp only [found, bind, EStateM.bind, scan, Scanner.skipTrivia, clear, Bool.false_and, Bool.or_false, Bool.false_eq_true,
    if_false]
  rfl

theorem skippedStands (h : p.scanner.Stands file m c) : p.skipped.scanner.Stands file m c.skip := by
  obtain rfl := h.cursor
  exact ⟨h.path, h.mode, rfl, Scanner.foretellsSkip h.ahead,
    Position.leTrans h.behind p.scanner.cursor.reachesSkip.position⟩

theorem foundToken {k : Token.Kind} (h : p.scanner.Stands file m c) (clear : Trivia.opensComment c.skip.rest = false)
    (next : c.next? m = some (k, c')) :
    ∃ t p', found p = .ok (some t) p' ∧ t.kind = k ∧ t.span = c.spanTo c' file := by
  have first := (skippedStands h).current
  have ran := foundPast (p := p) (by rw [h.cursor, clear])
  cases token : p.skipped.scanner.current.1 with
  | none =>
      rw [token, Cursor.nextSkip, next] at first
      cases first
  | some t =>
      rw [token, Cursor.nextSkip, next] at first
      obtain ⟨c'', same, span⟩ := first
      obtain ⟨rfl, rfl⟩ := Prod.mk.inj (Option.some.inj same)
      rw [Cursor.spanTo, Cursor.skipSkip] at span
      exact ⟨t, _, by rw [ran, ← token]; rfl, rfl, span⟩

theorem meetsFound (h : p.scanner.Rests file m c) :
    Meets found p (fun t p' => Finds file m c t ∧ p'.scanner.lastEnd = c.position ∧ p'.scanner.file = file) bad := by
  obtain rfl := h.cursor
  unfold Meets
  cases unclosed : Trivia.opensComment p.scanner.cursor.skip.rest with
  | true =>
      rw [foundUnclosed unclosed]
      exact ⟨Trivia.trailsUnclosed unclosed, h.ended, h.path⟩
  | false =>
      rw [foundPast unclosed]
      have first := (skippedStands h.toStands).current
      obtain ⟨-, lastEnd, -, path⟩ := (Scanner.currentForesees p.skipped.scanner).same
      refine ⟨?_, lastEnd.trans h.ended, path.trans h.path⟩
      cases token : p.skipped.scanner.current.1 with
      | none =>
          rw [token] at first
          exact Trivia.trailsEnd (Cursor.nextNone.mp ((Cursor.nextSkip m _).symm.trans first))
      | some t =>
          rw [token] at first
          obtain ⟨c', next, span⟩ := first
          rw [Cursor.spanTo, Cursor.skipSkip] at span
          exact ⟨c', (Cursor.nextSkip m _).symm.trans next, span⟩

def Rejects (source : String) (file : Option String) (e : ParseError) (s : Scanner) : Prop :=
  (∀ span ∈ e.spans, span.Seated source file) ∧ e.Founded source file s.lastEnd

theorem rejectsToken {t : Token} (within : c.Within source) (next : c.next? m = some (t.kind, c'))
    (span : t.span = c.spanTo c' file) (s : Scanner) :
    Rejects source file ⟨"unexpected token `" ++ t.kind.text ++ "`", t.span, .unexpectedToken t.kind.text, []⟩ s := by
  obtain ⟨traced, nonempty⟩ := Cursor.nextTraces next
  refine ⟨List.forall_mem_singleton.mpr ?_, ?_, ?_⟩
  · rw [span]
    exact seatedToken within traced.reaches
  · rw [span]
    exact (traced.advances nonempty).farther
  · rw [span]
    exact (c.reachesSkip.within within).slice traced

theorem rejectsInvalid {t : Token} {raw message : String} (within : c.Within source) (next : c.next? m = some (t.kind, c'))
    (span : t.span = c.spanTo c' file) (invalid : t.kind = .invalid raw message) (s : Scanner) :
    Rejects source file ⟨message, t.span, .invalidToken, []⟩ s := by
  obtain ⟨a, found, kind, own⟩ := @Scanner.lexOf file _ _ _ _ next
  refine ⟨List.forall_mem_singleton.mpr ?_, m, c, a, raw, within, found, kind.trans invalid, own.trans span.symm⟩
  rw [span]
  exact seatedToken within (Cursor.skipReaches next)

theorem rejectsEnd (within : c.Within source) (unsplit : c.Unsplit) (trails : Trivia.Trails c.rest)
    (ended : s.lastEnd = c.position) : Rejects source file
      ⟨"unexpected end of input", ⟨s.lastEnd, s.lastEnd, file⟩, .unexpectedEnd, []⟩ s := by
  obtain ⟨front, whole, offset⟩ := within.offset
  refine ⟨List.forall_mem_singleton.mpr ?_, rfl, rfl, front, c.rest, whole, ?_, trails⟩
  · rw [ended]
    exact seatedHere within unsplit file
  · rw [ended]
    exact offset.symm

theorem meetsUnexpected (h : p.scanner.Poised source file m b) :
    Meets (unexpected none) p (fun e p' => Rejects source file e p'.scanner) bad := by
  refine (meetsFound h.rests).bind ?_
  rintro t p' ⟨finds, ended, path⟩
  cases t with
  | none =>
      have rejects := @rejectsEnd _ p'.scanner.file _ _ h.within h.unsplit finds ended
      rw [path] at rejects
      exact path ▸ rejects
  | some t =>
      obtain ⟨c', next, span⟩ := finds
      obtain ⟨kind, comments, place⟩ := t
      cases kind with
      | invalid raw message => exact rejectsInvalid h.within next span rfl p'.scanner
      | _ => exact rejectsToken h.within next span p'.scanner

theorem meetsTooDeep (h : p.scanner.Poised source file m b) : Meets currentSpan p (fun s p' => Rejects source file
    ⟨"maximum nesting depth exceeded", s, .depthExceeded p.config.maxDepth, []⟩ p'.scanner) bad := by
  have first := h.rests.toStands.current
  unfold Meets
  rw [currentSpanOf]
  refine ⟨List.forall_mem_singleton.mpr ?_, trivial⟩
  unfold spanHere
  cases token : p.scanner.current.1 with
  | none =>
      have here := seatedHere h.within h.unsplit file
      rw [← h.rests.ended, ← h.rests.path] at here
      exact h.rests.path ▸ here
  | some t =>
      rw [token] at first
      obtain ⟨c', next, span⟩ := first
      change t.span.Seated source file
      rw [span]
      exact seatedToken h.within (Cursor.skipReaches next)

end Causes

end Parser

def Watch.rejections (source : String) (file : Option String) : Watch where
  scanner := fun m b s => s.Poised source file m b
  error := Parser.Rejects source file
  mode := fun _ _ _ poised => poised.rests.mode
  current := fun _ _ s poised => poised.foresees (Scanner.currentForesees s)
  peek := fun _ _ s poised => poised.foresees (Scanner.peekForesees s)
  advance := fun _ _ _ poised => poised.advance
  text := fun _ _ _ poised => poised.text
  setMode := fun _ _ _ m poised => poised.setMode m
  restored := fun _ s m rejects => ⟨rejects.1, by rw [Scanner.setModeLastEnd]; exact rejects.2⟩
  unexpected := fun _ _ _ poised => Parser.meetsUnexpected poised
  tooDeep := fun _ _ _ poised => Parser.meetsTooDeep poised

section Tags

open JsxTree.Parser Grammar

theorem poisedExpect (poised : p.scanner.Poised source file m b) (o : String) : Meets (expect o) p
    (fun _ p' => p.scanner.cursor.Takes m o p'.scanner.cursor ∧ p'.scanner.Poised source file m b)
    fun e p' => Rejects source file e p'.scanner := by
  have rests : Parser.Rests ⟨p.config, file⟩ m p.depth p.scanner.cursor p := ⟨rfl, rfl, poised.rests⟩
  have met := (upholdsExpect o).meets (w := .rejections source file) poised (restsExpect rests (Position.leRefl _) o)
  refine met.result ?_
  rintro t p' ⟨⟨c', takes, -, rests'⟩, poised'⟩
  obtain rfl := rests'.scanner.cursor
  exact ⟨takes, poised'⟩

theorem poisedName (poised : p.scanner.Poised source file .jsx b) : Meets (required (name true)) p
    (fun n p' => ReadsName file true n p.scanner.cursor p'.scanner.cursor ∧ p'.scanner.Poised source file .jsx b)
    fun e p' => Rejects source file e p'.scanner := by
  have rests : Parser.Rests ⟨p.config, file⟩ .jsx p.depth p.scanner.cursor p := ⟨rfl, rfl, poised.rests⟩
  have met := (upholdsName true).required.meets (w := .rejections source file) poised
    (requiredName true rests (Position.leRefl _))
  refine met.result ?_
  rintro n p' ⟨⟨c', reads, rests'⟩, poised'⟩
  obtain rfl := rests'.scanner.cursor
  exact ⟨reads, poised'⟩

theorem comesFarther {α : Type} {r : EStateM.Result Halt Parser α} (begun : a.Within source) (reaches : a.Reaches b)
    (h : Comes (.rejections source file) m b r) : Comes (.rejections source file) m a r := by
  cases r with
  | ok x p' =>
      have poised : p'.scanner.Poised source file m b := h
      exact ⟨poised.rests, begun, reaches.trans poised.passed, poised.unsplit⟩
  | error halt p' => exact h

theorem mismatchRejects {own other : Node} {c₁ c₂ d d₁ d₂ : Cursor} (within : a.Within source)
    (opens : a.Takes .jsx "<" c₁) (name : ReadsName file true own c₁ c₂) (later : c₂.Reaches d)
    (closes : d.Takes .jsx "<" d₁) (slash : d₁.Takes .jsx "/" d₂) (closingName : ReadsName file true other d₂ c')
    (differ : own.sameName other = false) (s : Scanner) : Rejects source file (mismatchedClosingTag own other) s := by
  obtain ⟨opening, written⟩ := name.formed.written
  obtain ⟨closing, closingWritten⟩ := closingName.formed.written
  have apart : opening ≠ closing := by
    rintro rfl
    rw [name.formed.same closingName.formed (written.trans closingWritten.symm)] at differ
    cases differ
  have first := Cursor.nextReaches opens
  have second : c₂.Reaches d₂ := later.trans ((Cursor.nextReaches closes).trans (Cursor.nextReaches slash))
  have inside : c₂.Within source := (first.trans name.advances.reaches).within within
  have ordered := (second.trans d₂.reachesSkip).position
  refine ⟨?_, ?_⟩
  · have spans : (mismatchedClosingTag own other).spans = [other.span, own.span] := rfl
    rw [spans, name.span, closingName.span]
    exact List.forall_mem_cons.mpr ⟨seatedToken (second.within inside) closingName.skipReaches,
      List.forall_mem_singleton.mpr (seatedToken (first.within within) name.skipReaches)⟩
  · change ParseError.Mismatch source file (own.nameText.getD "") (other.nameText.getD "") (mismatchedClosingTag own other)
    rw [written, closingWritten]
    exact .tags within opens name later closes slash closingName written closingWritten apart closingName.span rfl
      (congrArg some name.span) ordered

theorem closingTagComes {own : Node} {c₁ : Cursor} (within : a.Within source) (opens : a.Takes .jsx "<" c₁)
    (name : ReadsName file true own c₁ c) (poised : p.scanner.Poised source file .jsx c) :
    Comes (.rejections source file) .jsx c (closingTag own p) := by
  have later := poised.passed
  refine comesMeets (poisedExpect poised "<") ?_
  rintro less p₁ ⟨closes, poised₁⟩
  refine comesMeets (poisedExpect poised₁ "/") ?_
  rintro - p₂ ⟨slash, poised₂⟩
  refine comesMeets (poisedName poised₂) ?_
  rintro other p₃ ⟨closingName, poised₃⟩
  refine (upholdsExpect ">" p₃ poised₃).bind fun _ p₄ poised₄ => ?_
  cases same : own.sameName other with
  | true => exact upholdsNode .closingElement (.token less) p₄ poised₄
  | false => exact mismatchRejects within opens name later closes slash closingName same p₄.scanner

variable {inner : Inner}

theorem elementTailComes (each : ∀ k, Upholds (.rejections source file) (inner k)) {own : Node} {c₁ : Cursor}
    (within : a.Within source) (opens : a.Takes .jsx "<" c₁) (name : ReadsName file true own c₁ c)
    (poised : p.scanner.Poised source file .jsx c) (selfClosing : Bool) :
    Comes (.rejections source file) .jsx c (elementTail inner own selfClosing p) := by
  cases selfClosing with
  | true => exact poised
  | false =>
      refine (upholdsChildren each p poised).bind fun _ p₁ poised₁ => ?_
      exact (closingTagComes within opens name poised₁).bind fun _ _ => id

theorem elementBodyComes (each : ∀ k, Upholds (.rejections source file) (inner k))
    (poised : p.scanner.Poised source file .jsx b) : Comes (.rejections source file) .jsx b (elementBody inner p) := by
  have within := poised.within
  refine comesMeets (poisedExpect poised "<") ?_
  rintro less p₁ ⟨opens, poised₁⟩
  refine comesMeets (poisedName poised₁) ?_
  rintro own p₂ ⟨name, poised₂⟩
  have here : p₂.scanner.Poised source file .jsx p₂.scanner.cursor :=
    ⟨poised₂.rests, poised₂.within, Cursor.reachesRefl _, poised₂.unsplit⟩
  -- From here on, what comes is known to lie behind the name.
  refine comesFarther poised₂.begun poised₂.passed ?_
  refine (upholdsAttributes each p₂ here).bind fun _ p₃ poised₃ => ?_
  refine (upholdsConsume ["/"] p₃ poised₃).bind fun slash p₄ poised₄ => ?_
  refine (upholdsExpect ">" p₄ poised₄).bind fun greater p₅ poised₅ => ?_
  refine (elementTailComes each within opens name poised₅ slash.isSome).bind fun tail p₆ poised₆ => ?_
  obtain ⟨children, closing⟩ := tail
  refine (upholdsOpen .openingElement (.token less) p₆ poised₆).bind fun _ p₇ poised₇ => ?_
  refine (upholdsComplete p₇ poised₇).bind fun _ p₈ poised₈ => ?_
  exact upholdsNode .element (.token less) p₈ poised₈

theorem rejectionsTags (source : String) (file : Option String) : Grammar.Tags (.rejections source file) :=
  fun _ each _ _ _ poised => comesWithMode poised (elementBodyComes each (poised.setMode .jsx))

end Tags

variable {config : Config} {h : Halt} {e : ParseError}

theorem rejected (failed : parse source config file = .error h) : ∃ e p, h = .error e ∧
    Parser.wholeExpression (.start source config file) = .error h p ∧ Parser.Rejects source file e p.scanner := by
  have raised := Parser.upholdsWholeExpression (rejectionsTags source file) (.start source config file)
    (Scanner.startPoised source file)
  obtain ⟨outcome, came⟩ := parseOutcome source config file
  rw [failed] at came
  cases outcome with
  | ok n => cases came
  | error e =>
      cases came
      unfold parse at failed
      cases ran : Parser.wholeExpression (.start source config file) with
      | ok n p =>
          rw [ran] at failed
          cases failed
      | error halt p =>
          rw [ran] at failed raised
          cases failed
          exact ⟨e, p, rfl, rfl, raised⟩

theorem parseErrorSeated (failed : parse source config file = .error (.error e)) :
    ∀ span ∈ e.spans, span.Seated source file := by
  obtain ⟨e', p, same, -, rejects⟩ := rejected failed
  cases same
  exact rejects.1

/-- What a parse is refused for is an error, and what the error says is so. -/
theorem rejectionTold (failed : parse source config file = .error h) : ∃ e p, h = .error e ∧
    Parser.wholeExpression (.start source config file) = .error h p ∧ e.Told source file p.scanner.lastEnd := by
  obtain ⟨e, p, same, ran, rejects⟩ := rejected failed
  exact ⟨e, p, same, ran, fun span inside => (rejects.1 span inside).told, rejects.2⟩

theorem rejectionToldMismatch : ∃ (e : ParseError) (p : Parser),
    Parser.wholeExpression (.start "<a . b></ a:c>" {} (some "f")) = .error (.error e) p ∧
      e.kind = .mismatchedClosingTag "a.b" "a:c" ∧ e.Told "<a . b></ a:c>" (some "f") p.scanner.lastEnd := by
  let column := fun n => Position.mk 0 n (some n) n
  let e := ParseError.mk "closing tag does not match opening tag" ⟨column 10, column 13, some "f"⟩
    (.mismatchedClosingTag "a.b" "a:c") [⟨.general, "opening tag `a.b` here", some ⟨column 1, column 6, some "f"⟩⟩,
      ⟨.help, "close the element with `</a.b>`", none⟩]
  have failed : parse "<a . b></ a:c>" {} (some "f") = .error (.error e) := Parser.refusedOf (by decide +kernel)
  obtain ⟨e', p, same, ran, told⟩ := rejectionTold failed
  cases same
  exact ⟨e, p, ran, rfl, told⟩

end JsxTree
