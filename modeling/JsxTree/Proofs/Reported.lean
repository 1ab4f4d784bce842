import JsxTree.Proofs.Rejections
import JsxTree.Proofs.Sessions

/-! Every position that a scanner or a parse reports, of whatever token, comment, node, error or note, is the one counted
at its offset, whatever was asked before. -/
namespace JsxTree

def Span.positions (s : Span) : List Position := [s.start, s.stop]

def Token.positions (t : Token) : List Position := t.span.positions ++ t.comments.flatMap (·.span.positions)

def Answer.positions : Answer → List Position
  | .token (some t) => t.positions
  | .position p => [p]
  | _ => []

def ParseError.positions (e : ParseError) : List Position :=
  e.span.positions ++ e.notes.flatMap fun n => (n.span.map Span.positions).getD []

/-- The positions of a source that are reported, by scanners and by parses, in whatever file it is said to be. -/
inductive Reported (source : String) : Position → Prop where
  | asked {file calls answer p} (given : answer ∈ (Session.run Scanner.ask calls (Scanner.session source file)).1)
      (inside : p ∈ answer.positions) : Reported source p
  | parsed {file config n m p} (accepted : parse source config file = .ok n) (below : m ∈ n.preorder)
      (inside : p ∈ m.span.positions) : Reported source p
  | refused {file config e p} (failed : parse source config file = .error (.error e))
      (inside : p ∈ e.positions) : Reported source p

variable {source : String} {file : Option String} {p : Position}

theorem Span.Sited.counted {s : Span} (h : s.Sited source file) (inside : p ∈ s.positions) : Counted source p := by
  obtain rfl | rfl : p = s.start ∨ p = s.stop := by simpa [Span.positions] using inside
  · exact h.start
  · exact h.stop

theorem Token.Sited.counted {t : Token} (h : t.Sited source file) (inside : p ∈ t.positions) : Counted source p := by
  obtain own | before := List.mem_append.mp inside
  · exact h.span.counted own
  · obtain ⟨c, comment, there⟩ := List.mem_flatMap.mp before
    exact (h.comments c comment).counted there

theorem ParseError.positionsSpanned {e : ParseError} (inside : p ∈ e.positions) : ∃ s ∈ e.spans, p ∈ s.positions := by
  obtain own | noted := List.mem_append.mp inside
  · exact ⟨e.span, List.mem_cons_self, own⟩
  · obtain ⟨n, note, there⟩ := List.mem_flatMap.mp noted
    cases span : n.span with
    | none => simp [span] at there
    | some s =>
        rw [span] at there
        exact ⟨s, List.mem_cons_of_mem _ (List.mem_filterMap.mpr ⟨n, note, span⟩), there⟩

structure Session.Sited (source : String) (file : Option String) (s : Session Scanner) : Prop where
  scanner : s.scanner.Sited source file
  marks : ∀ mark ∈ s.marks, mark.cursor.Within source ∧ Counted source mark.lastEnd

variable {s : Session Scanner}

theorem Session.Sited.ask (h : s.Sited source file) (call : Call) :
    (∀ p ∈ (Scanner.ask s call).1.positions, Counted source p) ∧ (Scanner.ask s call).2.Sited source file := by
  have scanner := h.scanner
  have hands : ∀ {r : Option Token × Scanner}, Scanner.Hands source file r →
      (∀ p ∈ (Answer.token r.1).positions, Counted source p) ∧ Session.Sited source file ⟨r.2, s.marks⟩ := by
    intro r ⟨kept, own⟩
    refine ⟨?_, kept, h.marks⟩
    obtain ⟨t, s'⟩ := r
    cases t with
    | none => exact List.forall_mem_nil _
    | some t => exact fun p => (own t rfl).counted
  cases call with
  | current => exact hands scanner.current
  | peek => exact hands scanner.peek
  | advance => exact hands scanner.advance
  | consume ps => exact hands (scanner.consume ps)
  | readText => exact hands scanner.readText
  | atEnd => exact ⟨List.forall_mem_nil _, scanner.current.1, h.marks⟩
  | setMode m => exact ⟨List.forall_mem_nil _, scanner.setMode m, h.marks⟩
  | skipTrivia required => exact ⟨List.forall_mem_nil _, scanner.skipTrivia required, h.marks⟩
  | lastEnd => exact ⟨List.forall_mem_singleton.mpr scanner.lastEnd, h⟩
  | checkpoint =>
      refine ⟨List.forall_mem_nil _, scanner, fun mark inside => ?_⟩
      obtain already | new := List.mem_append.mp inside
      · exact h.marks mark already
      · cases List.mem_singleton.mp new
        exact ⟨scanner.cursor, scanner.lastEnd⟩
  | rewind i =>
      simp only [Scanner.ask]
      cases found : s.marks[i]? with
      | none => exact ⟨List.forall_mem_nil _, h⟩
      | some mark =>
          obtain ⟨cursor, lastEnd⟩ := h.marks mark (List.mem_of_getElem? found)
          exact ⟨List.forall_mem_nil _, scanner.rewind cursor lastEnd, h.marks⟩

theorem Session.Sited.run (h : s.Sited source file) (calls : List Call) :
    ∀ answer ∈ (Session.run Scanner.ask calls s).1, ∀ p ∈ answer.positions, Counted source p := by
  induction calls generalizing s with
  | nil => exact List.forall_mem_nil _
  | cons call calls ih => exact List.forall_mem_cons.mpr ⟨(h.ask call).1, ih (h.ask call).2⟩

theorem Reported.counted (h : Reported source p) : Counted source p := by
  cases h with
  | @asked file calls answer _ given inside =>
      have starts : (Scanner.session source file).Sited source file :=
        ⟨Scanner.startSited source file, List.forall_mem_nil _⟩
      exact starts.run calls answer given p inside
  | parsed accepted below inside => exact (parseTreeSited accepted _ below).counted inside
  | refused failed inside =>
      obtain ⟨s, spanned, there⟩ := ParseError.positionsSpanned inside
      exact (parseErrorSeated failed s spanned).told.1.counted there

/-- Every position reported lies between two characters and is the one counted there from the text in front; two of one
source at the same offset are the same. -/
theorem reportedByOffset (source : String) :
    (∀ p, Reported source p → Position.at? source p.offset = some p) ∧
      ∀ p q, Reported source p → Reported source q → p.offset = q.offset → p = q :=
  ⟨fun _ => Reported.counted, fun _ _ first second => first.counted.equal second.counted⟩

theorem reportedByOffsetTwice :
    let source := "'😀'\r\n+ '😀' +"
    let p := Position.mk 1 7 (some 8) 18
    Reported source p ∧ Position.at? source 18 = some p ∧ ∀ q, Reported source q → q.offset = 18 → q = p := by
  intro source p
  let e := ParseError.mk "unexpected end of input" ⟨p, p, none⟩ .unexpectedEnd []
  have ended : parse source {} none = .error (.error e) := Parser.refusedOf (by decide +kernel)
  have refused : Reported source p := .refused ended (by decide)
  have calls : Reported source p :=
    @Reported.asked source none [.advance, .peek, .advance, .advance, .advance, .lastEnd] (.position p) p
      (by decide +kernel) (by decide)
  exact ⟨calls, (reportedByOffset source).1 p calls, fun q second same => (reportedByOffset source).2 q p second refused same⟩

end JsxTree
