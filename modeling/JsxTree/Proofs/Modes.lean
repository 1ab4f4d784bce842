import JsxTree.Proofs.Asserting
import JsxTree.Proofs.Bufferless
import JsxTree.Proofs.Progress
import JsxTree.Proofs.Slices
import JsxTree.Proofs.Tags

/-! Fragments in the two modes. Script mode sees the brackets of a fragment too, unless it takes the second of them into
one token with a `=` or `>` right behind it. From the first bracket on the parse is the same, whatever was read ahead. -/
namespace JsxTree

open JsxTree.Parser

namespace Scanner

variable {file : Option String} {m : Mode} {c c' : Cursor} {s s' : Scanner} {u : Bufferless} {t : Token}

def Consecutive (s : Scanner) : Prop := ∀ a as, s.ahead = a :: as → Linked (Fresh true s.file s.mode) a.after as

theorem Consecutive.readAhead (h : s.Consecutive) : s.readAhead.Consecutive := by
  rw [readAheadOf]
  intro b bs ahead
  cases found : lex? s.file s.mode (frontier s.cursor s.ahead) with
  | none =>
      rw [found, Option.toList_none, List.append_nil] at ahead
      exact h b bs ahead
  | some new =>
      cases earlier : s.ahead with
      | nil =>
          rw [found, earlier] at ahead
          cases ahead
          trivial
      | cons a as =>
          rw [earlier] at found
          simp only [earlier, found, Option.toList_some, List.cons_append, List.cons.injEq] at ahead
          obtain ⟨rfl, rfl⟩ := ahead
          exact linkedMore (h a as earlier) (lexFresh found)

theorem Consecutive.foresees (h : s.Consecutive) (more : Foresees s s') : s'.Consecutive := by
  induction more with
  | refl => exact h
  | more _ ih => exact ih.readAhead

theorem Consecutive.taken (h : s.Consecutive) (taken : s.advance.1 = some t) : Foreseen true s.advance.2 none := by
  have filled := h.foresees (fillForesees 1 s)
  simp only [Scanner.advance] at *
  cases ahead : (s.fill 1).ahead with
  | nil =>
      rw [ahead] at taken
      cases taken
  | cons a as => exact filled a as ahead

theorem Consecutive.advance (h : s.Consecutive) : s.advance.2.Consecutive := by
  cases taken : s.advance.1 with
  | none =>
      have filled := h.foresees (fillForesees 1 s)
      simp only [Scanner.advance] at *
      cases ahead : (s.fill 1).ahead with
      | nil => exact filled
      | cons => simp [ahead] at taken
  | some t =>
      intro a as ahead
      have foreseen := h.taken taken
      rw [Foreseen, ahead] at foreseen
      exact foreseen.2

theorem consecutiveLasting : Lasting Consecutive := by
  intro s s' move h
  cases move with
  | current | atEnd => exact h.foresees (currentForesees s)
  | peek => exact h.foresees (peekForesees s)
  | advance => exact h.advance
  | consume ps =>
      have current := h.foresees (currentForesees s)
      simp only [Scanner.consume]
      split
      · exact current.advance
      · exact current
  | readText =>
      simp only [Scanner.readText]
      cases Lexeme.jsxText? s.cursor.rest with
      | none => exact h
      | some l =>
          intro a as ahead
          cases ahead
          trivial
  | skipTrivia required =>
      rcases skipTriviaSame required s with same | moved
      · rw [same]
        exact h
      · rw [moved]
        exact h
  | setMode m =>
      unfold Scanner.setMode
      split
      · exact h
      · intro a as ahead
        cases ahead

theorem matchesExact {t t' : Option Token} (h : Option.Rel (Token.Matches true) t t') : t = t' := by
  cases h with
  | none => rfl
  | @some a b same =>
      obtain ⟨kind, span, comments⟩ := same
      cases a
      cases b
      simp only at kind span comments
      rw [kind, span, comments trivial]

theorem Unbuffers.loosen (h : Unbuffers true s u) : Unbuffers false s u := by
  have loose : ∀ {c as}, Linked (Fresh true s.file s.mode) c as → Linked (Fresh false s.file s.mode) c as := by
    intro c as linked
    induction as generalizing c with
    | nil => trivial
    | cons a as ih =>
        obtain ⟨⟨b, found, ⟨kind, span, -⟩, after⟩, more⟩ := linked
        exact ⟨⟨b, found, ⟨kind, span, fun no => by cases no⟩, after⟩, ih more⟩
  refine ⟨h.cursor, h.lastEnd, h.mode, h.file, ?_⟩
  have foreseen := h.ahead
  cases text : u.text with
  | none =>
      rw [text] at foreseen
      exact loose foreseen
  | some a =>
      rw [text] at foreseen
      obtain ⟨as, ahead, more⟩ := foreseen
      exact ⟨as, ahead, loose more⟩

end Scanner

section Unbuffered

variable {α : Type} {p q p' : Parser} {u : Bufferless}

theorem Token.Matches.misfit {exact : Bool} {t t' : Token} (h : t.Matches exact t') : t.misfit = t'.misfit := by
  simp only [Token.misfit, h.1, h.2.1]

def Bufferless.found (u : Bufferless) : Option Token :=
  (u.skipTrivia false).1.bind fun _ => (u.skipTrivia false).2.current.map (·.token)

theorem foundSettled (h : Scanner.Unbuffers false p.scanner u) : ∃ t p', found p = .ok t p' ∧
    Option.Rel (Token.Matches false) t u.found ∧ Scanner.Unbuffers false p'.scanner (u.skipTrivia false).2 := by
  obtain ⟨bytes, beyond⟩ := h.skipTrivia false
  simp only [found, bind, EStateM.bind, scan, Bufferless.found, bytes]
  cases (u.skipTrivia false).1 with
  | none => exact ⟨none, _, rfl, .none, beyond⟩
  | some => exact ⟨_, _, rfl, beyond.current, beyond.foresees (Scanner.currentForesees _)⟩

theorem unexpectedSettled (h : Scanner.Unbuffers false p.scanner u) (h' : Scanner.Unbuffers false q.scanner u) :
    ∃ e p' q', unexpected none p = .ok e p' ∧ unexpected none q = .ok e q' := by
  obtain ⟨t, p', left, same, here⟩ := foundSettled h
  obtain ⟨t', q', right, same', there⟩ := foundSettled h'
  cases found : u.found with
  | none =>
      rw [found] at same same'
      cases same
      cases same'
      have ended := unexpectedEnd right
      rw [← there.lastEnd, ← there.file, here.lastEnd, here.file] at ended
      exact ⟨_, p', q', unexpectedEnd left, ended⟩
  | some token =>
      rw [found] at same same'
      cases same with
      | some first =>
          cases same' with
          | some second => exact ⟨_, p', q', unexpectedToken left, first.misfit.trans second.misfit.symm ▸ unexpectedToken right⟩

/-- States that no rule tells apart. -/
structure Matching (p q : Parser) : Prop where
  config : p.config = q.config
  depth : p.depth = q.depth
  asserting : p.asserting = q.asserting
  scanners : ∃ u, Scanner.Unbuffers true p.scanner u ∧ Scanner.Unbuffers true q.scanner u

theorem matchingAnswered {f : Scanner → α × Scanner} {g : Bufferless → Bufferless} (h : Matching p q)
    (answers : ∀ s s' u, Scanner.Unbuffers true s u → Scanner.Unbuffers true s' u →
      (f s).1 = (f s').1 ∧ Scanner.Unbuffers true (f s).2 (g u) ∧ Scanner.Unbuffers true (f s').2 (g u)) :
    Answered Matching f p q := by
  obtain ⟨config, depth, asserting, u, left, right⟩ := h
  obtain ⟨answer, here, there⟩ := answers _ _ u left right
  exact ⟨answer, config, depth, asserting, g u, here, there⟩

theorem matchingSpan (h : Matching p q) : p.spanHere = q.spanHere := by
  obtain ⟨-, -, -, u, left, right⟩ := h
  have tokens : p.scanner.current.1 = q.scanner.current.1 :=
    (Scanner.matchesExact left.current).trans (Scanner.matchesExact right.current).symm
  rw [Parser.spanHere, Parser.spanHere, tokens, ← left.lastEnd, ← left.file, right.lastEnd, right.file]

def unbuffered : Pairing where
  rel _ := Matching
  failing _ _ _ := True
  shared _ := True
  early _ := False
  ready _ := True
  looked _ _ := trivial
  abreast := by
    intro b p q h
    obtain ⟨config, -, -, u, left, right⟩ := h
    exact ⟨left.cursor.symm.trans right.cursor, left.lastEnd.symm.trans right.lastEnd, left.mode.symm.trans right.mode,
      left.file.symm.trans right.file, congrArg Config.jsx config⟩
  current _ _ _ h := matchingAnswered (g := id) h fun _ _ _ left right =>
    ⟨(Scanner.matchesExact left.current).trans (Scanner.matchesExact right.current).symm,
      left.foresees (Scanner.currentForesees _), right.foresees (Scanner.currentForesees _)⟩
  peek _ _ _ h := matchingAnswered (g := id) h fun _ _ _ left right =>
    ⟨(Scanner.matchesExact left.peek).trans (Scanner.matchesExact right.peek).symm,
      left.foresees (Scanner.peekForesees _), right.foresees (Scanner.peekForesees _)⟩
  advance _ _ _ h := matchingAnswered (g := fun u => u.advance.2) h fun _ _ _ left right =>
    ⟨(Scanner.matchesExact left.advance.1).trans (Scanner.matchesExact right.advance.1).symm,
      left.advance.2, right.advance.2⟩
  readText _ _ _ h := matchingAnswered (g := fun u => u.readText.2) h fun _ _ _ left right =>
    ⟨(Scanner.matchesExact left.readText.1).trans (Scanner.matchesExact right.readText.1).symm,
      left.readText.2, right.readText.2⟩
  setMode _ _ _ m h := by
    obtain ⟨config, depth, asserting, u, left, right⟩ := h
    exact ⟨config, depth, asserting, u.setMode m, left.setMode m, right.setMode m⟩
  unexpected _ _ _ h _ _ := by
    obtain ⟨-, -, -, u, left, right⟩ := h
    obtain ⟨e, p', q', here, there⟩ := unexpectedSettled left.loosen right.loosen
    exact ⟨e, p', q', here, there, trivial, trivial⟩
  mismatched _ _ := trivial
  enter _ p q h := by
    have span := matchingSpan h
    obtain ⟨config, depth, asserting, scanners⟩ := h
    by_cases full : p.config.maxDepth ≤ p.depth
    · rw [enterFull full, enterFull (by rwa [← config, ← depth]), span, config]
      exact .both trivial fun _ _ => trivial
    · have room := Nat.lt_of_not_le full
      rw [enterRoom room, enterRoom (by rwa [← config, ← depth]), depth]
      exact .same ⟨config, rfl, asserting, scanners⟩
  leave _ _ _ _ _ _ h := ⟨h.config, congrArg (· - 1) h.depth, h.asserting, h.scanners⟩
  fails _ _ _ _ := trivial
  failingMode _ _ _ _ _ := trivial
  asserts _ _ _ claim _ h := assertsAlike h.asserting h trivial claim
  failingLeave _ _ _ _ _ _ _ := trivial

end Unbuffered

namespace Parser

variable {α β : Type} {p : Parser} {body : Parse α}

def outcome (step : Parse α) (p : Parser) : Except Halt α :=
  match step p with
  | .ok a _ => .ok a
  | .error h _ => .error h

theorem outcomeMode (m : Mode) (body : Parse α) (p : Parser) : outcome (withMode m body) p = outcome body (p.setMode m) := by
  simp only [outcome, withMode]
  cases body (p.setMode m) <;> rfl

theorem outcomeSome (step : Parse α) (p : Parser) : outcome (return some (← step)) p = (outcome step p).map some := by
  simp only [outcome, bind, EStateM.bind]
  cases step p <;> rfl

theorem outcomeRoom (room : p.depth < p.config.maxDepth) :
    outcome (deeper body) p = outcome body { p with depth := p.depth + 1 } := by
  simp only [outcome, deeper, bind, EStateM.bind, enterRoom room]
  cases body { p with depth := p.depth + 1 } <;> rfl

theorem outcomeFull (full : p.config.maxDepth ≤ p.depth) : outcome (deeper body) p = .error
    (.error ⟨"maximum nesting depth exceeded", p.spanHere, .depthExceeded p.config.maxDepth, []⟩) := by
  simp only [outcome, deeper, bind, EStateM.bind, enterFull full]

theorem outcomeMatched {rel failing : Parser → Parser → Prop} {shared : ParseError → Prop} {step step' : Parse α}
    {q : Parser} (run : Matched rel failing shared (fun _ => False) (step p) (step' q)) : outcome step p = outcome step' q := by
  unfold outcome
  generalize step p = left at *
  generalize step' q = right at *
  cases run with
  | same | both => rfl
  | alone raised => exact raised.elim

end Parser

def Cursor.Bracketed (c : Cursor) (m : Mode) (c' : Cursor) : Prop := ∃ b, c.Takes m "<" b ∧ b.Takes m ">" c'

def Cursor.glued (c : Cursor) : Bool :=
  (c.next? .jsx).any fun less => less.1 == .punctuator "<" && (less.2.next? .jsx).any fun greater =>
    greater.1 == .punctuator ">" && greater.2.rest.head?.any runsOnTag

namespace Grammar

open Cursor Lexeme JsxTree.Parser

variable {x : Setting} {m : Mode} {d budget : Nat} {c b c' : Cursor} {p q : Parser} {o : String} {inner : Inner}

theorem expectAdvances (h : Stands x m d c p) (takes : c.Takes m o b) : ∃ t,
    expect o p = .ok t { p with scanner := p.scanner.advance.2 } ∧ p.scanner.advance.1 = some t ∧
      t.span = c.spanTo b x.file ∧ Rests x m d b { p with scanner := p.scanner.advance.2 } := by
  have step := h.scanner.advance
  have again := Scanner.advanceCurrent p.scanner
  generalize taken : p.scanner.advance = r at *
  obtain ⟨token, s⟩ := r
  cases token with
  | none =>
      rw [takes] at step
      cases step.1
  | some t =>
      obtain ⟨b', next, span, rests⟩ := step
      obtain ⟨kind, rfl⟩ : .punctuator o = t.kind ∧ b = b' := by rw [takes] at next; simpa using next
      have fits : t.isPunctuator o = true := Token.isPunctuatorIff.mpr kind.symm
      have current : p.scanner.current.1 = some t := by rw [currentAdvances, taken]
      refine ⟨t, ?_, rfl, span, h.config, h.depth, rests⟩
      simp only [expect, consume, bind, EStateM.bind, scan, Scanner.consume, current, Option.any_some, List.any_cons, fits,
        Bool.true_or, if_true, again]
      rfl

theorem bodySettled (h : Stands x .jsx d c p) (consecutive : p.scanner.Consecutive) (h' : Stands x .jsx d c q)
    (consecutive' : q.scanner.Consecutive) (asserting : p.asserting = q.asserting) (less : c.Takes .jsx "<" b) :
    outcome (fragmentBody (within budget)) p = outcome (fragmentBody (within budget)) q := by
  obtain ⟨t, ran, taken, span, rests⟩ := expectAdvances h less
  obtain ⟨t', ran', taken', span', rests'⟩ := expectAdvances h' less
  have unbuffers : ∀ {s : Scanner} {t : Token}, s.Consecutive → s.advance.1 = some t → s.advance.2.Rests x.file .jsx b →
      Scanner.Unbuffers true s.advance.2 ⟨b, b.position, .jsx, none, x.file⟩ := by
    intro s t consecutive taken rests
    exact ⟨rests.cursor.symm, rests.ended.symm, rests.mode.symm, rests.path.symm, consecutive.taken taken⟩
  have matching : Matching { p with scanner := p.scanner.advance.2 } { q with scanner := q.scanner.advance.2 } :=
    ⟨rests.config.trans rests'.config.symm, rests.depth.trans rests'.depth.symm, asserting, _,
      unbuffers consecutive taken rests.scanner, unbuffers consecutive' taken' rests'.scanner⟩
  have run := pairedFragmentFrom (w := unbuffered) (pairedWithin budget) (fun _ _ _ _ => trivial)
    (fun _ _ _ _ => trivial) (c.spanTo b x.file).start matching
  have behind := outcomeMatched run
  simp only [outcome, fragmentBodyEq, bind, EStateM.bind, ran, ran', span, span'] at behind ⊢
  exact behind

theorem meetsRan {α : Type} {step : Parse α} {good : α → Parser → Prop} (h : Meets step p good Never) :
    ∃ a p', step p = .ok a p' ∧ good a p' := by
  unfold Meets at h
  cases ran : step p with
  | ok a p' =>
      rw [ran] at h
      exact ⟨a, p', rfl, h⟩
  | error e =>
      rw [ran] at h
      cases e <;> exact h.elim

theorem fragmentOpens (inner : Inner) (h : Stands x m d c p) (opens : c.Bracketed m c') : ∃ p', Unmoved p p' ∧
    outcome (fragment inner) p = (outcome (deeper (withMode .jsx (fragmentBody inner))) p').map some := by
  obtain ⟨b, less, greater⟩ := opens
  obtain ⟨yes, p₁, ran, same, lessIff⟩ := meetsRan (meetsCurrentIs h "<")
  obtain rfl := lessIff.mpr ⟨b, less⟩
  obtain ⟨yes, p₂, ran', same', greaterIff⟩ := meetsRan (meetsPeekIs (h.unmoved same) ">")
  obtain rfl := greaterIff.mpr ⟨_, b, c', less, greater⟩
  refine ⟨p₂, same.trans same', ?_⟩
  rw [← outcomeSome]
  simp only [outcome, fragment, bind, EStateM.bind, ran, ran', if_true]

theorem fragmentPasses (inner : Inner) (h : Stands x m d c p) (never : ¬∃ c', c.Bracketed m c') :
    outcome (fragment inner) p = .ok none := by
  obtain ⟨less, p₁, ran, same, lessIff⟩ := meetsRan (meetsCurrentIs h "<")
  obtain ⟨greater, p₂, ran', -, greaterIff⟩ := meetsRan (meetsPeekIs (h.unmoved same) ">")
  simp only [outcome, fragment, bind, EStateM.bind, ran]
  cases less with
  | false => rfl
  | true =>
      simp only [if_true, EStateM.bind, ran']
      cases greater with
      | false => rfl
      | true =>
          obtain ⟨b, less⟩ := lessIff.mp rfl
          obtain ⟨k, b', c', next, greater⟩ := greaterIff.mp rfl
          obtain ⟨-, rfl⟩ : .punctuator "<" = k ∧ b = b' := by rw [less] at next; simpa using next
          exact absurd ⟨c', b, less, greater⟩ never

theorem spanHereOf (h : Stands x m d c p) (takes : c.Takes m o b) : p.spanHere = c.spanTo b x.file := by
  have current := h.scanner.current
  cases token : p.scanner.current.1 with
  | none =>
      rw [token, takes] at current
      cases current
  | some t =>
      rw [token] at current
      obtain ⟨b', next, span⟩ := current
      obtain ⟨-, rfl⟩ : .punctuator o = t.kind ∧ b = b' := by rw [takes] at next; simpa using next
      rw [Parser.spanHere, token, Option.map_some, Option.getD_some, span]

section Brackets

theorem bracketedAlike {m' : Mode} {c'' : Cursor} (opens : c.Bracketed m c') (opens' : c.Bracketed m' c'') : c' = c'' := by
  obtain ⟨b, less, greater⟩ := opens
  obtain ⟨b', less', greater'⟩ := opens'
  obtain rfl := takesAlike less less'
  exact takesAlike greater greater'

theorem takesJsx {e : Char} (free : Free .jsx o) (one : o.toList = [e]) (takes : c.Takes m o c') : c.Takes .jsx o c' := by
  obtain ⟨⟨front, -⟩, -⟩ := nextTraces takes
  obtain ⟨c'', jsx, -⟩ := markAt free one (front.trans (congrArg (· ++ c'.rest) one))
  rwa [takesAlike takes jsx]

theorem lessJsx (less : c.Takes m "<" c') : c.Takes .jsx "<" c' := takesJsx (freeJsx "<" (by decide)) rfl less

theorem greaterJsx (greater : c.Takes m ">" c') : c.Takes .jsx ">" c' := takesJsx (freeJsx ">" (by decide)) rfl greater

theorem bracketedJsx (opens : c.Bracketed m c') : c.Bracketed .jsx c' := by
  obtain ⟨b, less, greater⟩ := opens
  exact ⟨b, lessJsx less, greaterJsx greater⟩

theorem bracketedScript (opens : c.Bracketed .jsx c') : c.Bracketed .script c' ↔ Avoids runsOnTag c'.rest := by
  constructor
  · intro script
    obtain ⟨b, less, greater⟩ := opens
    obtain ⟨b', less', greater'⟩ := script
    exact tagStands greater'
  · intro stands
    obtain ⟨b, less, greater⟩ := opens
    obtain ⟨⟨front, -⟩, -⟩ := nextTraces less
    obtain ⟨⟨front', -⟩, -⟩ := nextTraces greater
    obtain ⟨c₁, greater', -⟩ := greaterAt .script (fun _ => stands) front'
    rw [Cursor.Takes, nextSkip] at greater'
    obtain rfl := takesAlike greater' greater
    have marked : ∀ e es, b.rest = e :: es → Trivia.isBlank e = false → e ≠ '/' → e = '>' := by
      intro e es behind solid slash
      rw [skipFirst solid slash behind, behind] at front'
      exact (List.cons.inj front').1
    obtain ⟨raw, through, -⟩ := b.reachesSkip
    cases behind : b.rest with
    | nil =>
        rw [behind, front'] at through
        cases raw <;> cases through
    | cons e es =>
        have plain : e ≠ '<' ∧ e ≠ '=' := by
          constructor <;> (rintro rfl; exact absurd (marked _ _ behind (by decide) (by decide)) (by decide))
        rw [behind] at front
        obtain ⟨b', less', -⟩ := lessAt .script plain front
        obtain rfl := takesAlike less' less
        exact ⟨b', less', greater'⟩

end Brackets

theorem deeperSettled {m' : Mode} (h : Stands x m d c p) (consecutive : p.scanner.Consecutive) (h' : Stands x m' d c q)
    (consecutive' : q.scanner.Consecutive) (asserting : p.asserting = q.asserting) (opens : c.Bracketed m c') (opens' : c.Bracketed m' c') :
    outcome (deeper (withMode .jsx (fragmentBody (within budget)))) p =
      outcome (deeper (withMode .jsx (fragmentBody (within budget)))) q := by
  obtain ⟨b, jsx, -⟩ := bracketedJsx opens
  obtain ⟨b', less, -⟩ := opens
  obtain ⟨b'', less', -⟩ := opens'
  by_cases full : x.config.maxDepth ≤ d
  · rw [outcomeFull (by rwa [h.config, h.depth]), outcomeFull (by rwa [h'.config, h'.depth]), spanHereOf h less,
      spanHereOf h' less', takesAlike less less', h.config, h'.config]
  · have room := Nat.lt_of_not_le full
    rw [outcomeRoom (by rwa [h.config, h.depth]), outcomeRoom (by rwa [h'.config, h'.depth]), outcomeMode, outcomeMode]
    exact bodySettled (h.enter.setMode .jsx) (Scanner.consecutiveLasting (.setMode .jsx _) consecutive)
      (h'.enter.setMode .jsx) (Scanner.consecutiveLasting (.setMode .jsx _) consecutive') asserting jsx

theorem gluedIff : c.glued = true ↔ ∃ c' e, c.Bracketed .jsx c' ∧ c'.rest.head? = some e ∧ runsOnTag e = true := by
  simp only [Cursor.glued, Option.any_eq_true, Prod.exists, Bool.and_eq_true, beq_iff_eq]
  constructor
  · intro glued
    obtain ⟨k, b, less, rfl, k', c', greater, rfl, e, head, runs⟩ := glued
    exact ⟨c', e, ⟨b, less, greater⟩, head, runs⟩
  · intro glued
    obtain ⟨c', e, ⟨b, less, greater⟩, head, runs⟩ := glued
    exact ⟨_, b, less, rfl, _, c', greater, rfl, e, head, runs⟩

theorem unglued (apart : c.glued = false) (opens : c.Bracketed .jsx c') : c.Bracketed .script c' := by
  refine (bracketedScript opens).mpr fun e head => Bool.eq_false_iff.mpr fun runs => ?_
  rw [gluedIff.mpr ⟨c', e, opens, head, runs⟩] at apart
  cases apart

theorem gluedHidden (glued : c.glued = true) : ¬∃ c', c.Bracketed .script c' := by
  obtain ⟨c', e, jsx, head, runs⟩ := gluedIff.mp glued
  intro opens
  obtain ⟨c'', script⟩ := opens
  obtain rfl := bracketedAlike script jsx
  rw [(bracketedScript jsx).mp script e head] at runs
  cases runs

theorem modesSettled (h : Stands x .script d c p) (consecutive : p.scanner.Consecutive) (h' : Stands x .jsx d c q)
    (consecutive' : q.scanner.Consecutive) (asserting : p.asserting = q.asserting) :
    (c.glued = false → outcome (fragment (within budget)) p = outcome (fragment (within budget)) q) ∧
    (c.glued = true →
      outcome (fragment (within budget)) p = .ok none ∧ outcome (fragment (within budget)) q ≠ .ok none) := by
  constructor
  · intro apart
    by_cases opens : ∃ c', c.Bracketed .jsx c'
    · obtain ⟨c', jsx⟩ := opens
      have script := unglued apart jsx
      obtain ⟨p', same, here⟩ := fragmentOpens (within budget) h script
      obtain ⟨q', same', there⟩ := fragmentOpens (within budget) h' jsx
      rw [here, there, deeperSettled (h.unmoved same) (consecutive.foresees same.scanner) (h'.unmoved same')
        (consecutive'.foresees same'.scanner) (same.asserting.trans (asserting.trans same'.asserting.symm)) script jsx]
    · rw [fragmentPasses _ h (fun script => opens (script.imp fun _ => bracketedJsx)), fragmentPasses _ h' opens]
  · intro glued
    obtain ⟨c', e, jsx, -⟩ := gluedIff.mp glued
    refine ⟨fragmentPasses _ h (gluedHidden glued), ?_⟩
    obtain ⟨q', -, there⟩ := fragmentOpens (within budget) h' jsx
    rw [there]
    cases outcome (deeper (withMode .jsx (fragmentBody (within budget)))) q' <;> simp [Except.map]

end Grammar

namespace Parser

open Grammar

variable {source : String} {config : Config} {file : Option String} {p q : Parser}

theorem Reachable.consecutive (h : Reachable source config file p) : p.scanner.Consecutive := by
  apply h.lasts Scanner.consecutiveLasting
  · intro a as ahead
    cases ahead
  · intro s s' _ _ a as ahead
    cases ahead

def Textless (p : Parser) : Prop := ∀ t raw, p.scanner.current.1 = some t → t.kind ≠ .jsxText raw

theorem Reachable.stands (h : Reachable source config file p) (textless : Textless p) :
    Stands ⟨p.config, p.scanner.file⟩ p.scanner.mode p.depth p.scanner.cursor p := by
  cases h.valid with
  | inl stands => exact standsSelf stands
  | inr pending =>
      obtain ⟨t, raw, current, kind⟩ := pending.current
      exact absurd kind (textless t raw current)

structure Facing (p q : Parser) : Prop where
  script : p.scanner.mode = .script
  jsx : q.scanner.mode = .jsx
  cursor : q.scanner.cursor = p.scanner.cursor
  file : q.scanner.file = p.scanner.file
  config : q.config = p.config
  depth : q.depth = p.depth
  textless : Textless p ∧ Textless q

theorem facingSettled (left : Reachable source config file p) (right : Reachable source config file q) (facing : Facing p q) :
    (p.scanner.cursor.glued = false → outcome (rule .fragment) p = outcome (rule .fragment) q) ∧
    (p.scanner.cursor.glued = true → outcome (rule .fragment) p = .ok none ∧ outcome (rule .fragment) q ≠ .ok none) := by
  have here := left.stands facing.textless.1
  have there := right.stands facing.textless.2
  rw [facing.script] at here
  rw [facing.jsx, facing.config, facing.file, facing.depth, facing.cursor] at there
  have settled := @modesSettled _ _ p.scanner.cursor.rest.length _ _ _ here left.consecutive there right.consecutive
    (left.released.trans right.released.symm)
  simpa only [outcome, rule, within, construct, facing.cursor] using settled

end Parser

end JsxTree
