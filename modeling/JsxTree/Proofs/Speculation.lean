import JsxTree.Proofs.Requests
import JsxTree.Proofs.RuleContract

/-! Speculation: a checkpoint is taken, a program tries what it may, and the parser goes back, whatever came of it. A
checkpoint holds only where the scanner stood. Mode and depth are what they were, because every step of the program puts
them back, also when it fails; and of what was read ahead nothing is left. -/
namespace JsxTree

open JsxTree.Parser

namespace Parser

variable {α β : Type} {x : Setting} {m m' : Mode} {d : Nat} {p p' : Parser}

def attempt (step : Parse α) : Parse (Except Halt α) := fun p => .ok (outcome step p) (left step p)

/-- The programs that speculation may run, made of tokens read and consumed, of rules, and of lists, folds and scopes of
such programs. -/
inductive Tentative : {α : Type} → Parse α → Prop where
  | pure {α : Type} (a : α) : Tentative (pure a : Parse α)
  | fail {α : Type} (h : Halt) : Tentative (throw h : Parse α)
  | bind {α β : Type} {step : Parse α} {next : α → Parse β} (first : Tentative step) (rest : ∀ a, Tentative (next a)) :
      Tentative (step >>= next)
  | attempt {α : Type} {step : Parse α} (tried : Tentative step) : Tentative (attempt step)
  | current : Tentative current
  | peek : Tentative peek
  | atEnd : Tentative atEnd
  | lastEnd : Tentative lastEnd
  | advance : Tentative advance
  | consume (ps : List String) : Tentative (consume ps)
  | rule (k : Construct) : Tentative (rule k)
  | withMode {α : Type} {body : Parse α} (m : Mode) (inside : Tentative body) : Tentative (withMode m body)
  | deeper {α : Type} {body : Parse α} (inside : Tentative body) : Tentative (deeper body)
  | list {α : Type} {item : Rule α} (each : Tentative item) (separators : List String) :
      Tentative (separatedList item separators)
  | fold {operand : Rule Node} (each : Tentative operand) (operators : List String) (join : Join) :
      Tentative (leftFold operand operators join)

structure Framed (x : Setting) (m : Mode) (d : Nat) (p : Parser) : Prop extends Keeps x m d .origin p where
  released : p.asserting = false

def Frames (step : Parse α) : Prop := ∀ ⦃x m d p⦄, Framed x m d p → Framed x m d (left step p)

section Frames

variable {step : Parse α}

theorem Framed.unmoved (h : Framed x m d p) (same : Unmoved p p') : Framed x m d p' :=
  ⟨h.toKeeps.unmoved same, same.asserting.trans h.released⟩

theorem Framed.setMode (h : Framed x m d p) (m' : Mode) : Framed x m' d (p.setMode m') := ⟨h.toKeeps.setMode m', h.released⟩

theorem framesStill (h : ∀ p, left step p = p) : Frames step := by
  intro x m d p kept
  rwa [h p]

theorem framesPure (a : α) : Frames (pure a) := framesStill fun _ => rfl

theorem framesThrow (h : Halt) : Frames (throw h : Parse α) := framesStill fun _ => rfl

theorem Frames.bind {next : α → Parse β} (first : Frames step) (rest : ∀ a, Frames (next a)) :
    Frames (step >>= next) := by
  intro x m d p kept
  have here := first kept
  change Framed _ _ _ (left (EStateM.bind step next) p)
  unfold left EStateM.bind at *
  cases ran : step p with
  | ok a p' =>
      rw [ran] at here
      exact rest a here
  | error h p' =>
      rw [ran] at here
      exact here

theorem Frames.either {rule : Rule α} {next : Option α → Parse β} (first : Frames rule) (absent : Frames (next none))
    (present : ∀ a, Frames (next (some a))) : Frames (rule >>= next) := by
  apply first.bind
  intro r
  cases r with
  | none => exact absent
  | some a => exact present a

theorem framesMeets (h : ∀ ⦃x m d p⦄, Keeps x m d .origin p →
    Meets step p (fun _ p' => Keeps x m d .origin p') (Failed x m d .origin))
    (released : ∀ p, p.asserting = false → (left step p).asserting = false) : Frames step := by
  intro x m d p kept
  refine ⟨?_, released p kept.released⟩
  have run := h kept.toKeeps
  unfold Meets at run
  unfold left
  cases ran : step p with
  | ok a p' =>
      rw [ran] at run
      exact run
  | error h p' =>
      rw [ran] at run
      cases h with
      | error e => exact run
      | exhausted | misshapen => exact run.elim

theorem framesCurrent : Frames current := fun _ _ _ _ kept => kept.unmoved ⟨rfl, rfl, rfl, Scanner.currentForesees _⟩

theorem framesPeek : Frames peek := fun _ _ _ _ kept => kept.unmoved ⟨rfl, rfl, rfl, Scanner.peekForesees _⟩

theorem framesAtEnd : Frames atEnd := fun _ _ _ _ kept => kept.unmoved ⟨rfl, rfl, rfl, Scanner.currentForesees _⟩

theorem framesLastEnd : Frames lastEnd := framesStill fun _ => rfl

theorem framesAdvance : Frames advance := by
  intro x m d p kept
  obtain ⟨-, -, mode, file⟩ := (Scanner.fillForesees 1 p.scanner).same
  have same : p.scanner.advance.2.mode = p.scanner.mode ∧ p.scanner.advance.2.file = p.scanner.file := by
    simp only [Scanner.advance]
    cases (p.scanner.fill 1).ahead <;> exact ⟨mode, file⟩
  exact ⟨⟨kept.config, kept.depth, same.1.trans kept.mode, same.2.trans kept.file, Nat.zero_le _, kept.valid.advance⟩,
    kept.released⟩

theorem framesConsume (ps : List String) : Frames (consume ps) := by
  intro x m d p kept
  have looked : Framed x m d { p with scanner := p.scanner.current.2 } :=
    kept.unmoved ⟨rfl, rfl, rfl, Scanner.currentForesees _⟩
  simp only [left, consume, scan, Scanner.consume]
  split
  · exact framesAdvance looked
  · exact looked

theorem framesFailUnexpected : Frames (failUnexpected : Parse α) := by
  refine framesMeets (fun _ _ _ _ kept => (meetsFailUnexpected kept).weaken (fun _ _ => False.elim) fun _ _ => id) ?_
  intro p released
  obtain ⟨e, s, -, -, runs⟩ := unexpectedOf p.scanner
  have ran := runs p.config p.depth p.asserting
  simp only [left, failUnexpected, Bind.bind, EStateM.bind, ran]
  exact released

theorem Frames.required {rule : Rule α} (h : Frames rule) : Frames (required rule) :=
  h.either framesFailUnexpected framesPure

theorem framesRule (k : Construct) : Frames (rule k) := by
  refine framesMeets (fun x m d p kept => ?_) fun p released => ?_
  · cases kept.valid with
    | inl stands =>
        rw [kept.mode, kept.file] at stands
        have answers := Grammar.ruleAnswers k ⟨kept.config, kept.depth, stands⟩
        refine answers.weaken (fun r p' answer => ?_) fun e p' failed => ?_
        · cases r with
          | none => exact kept.unmoved answer
          | some n =>
              obtain ⟨c', -, rests⟩ := answer
              exact rests.keeps (Nat.zero_le _)
        · exact Keeps.earlier failed (Nat.zero_le _)
    | inr pending =>
        obtain ⟨p', ran, same⟩ := silentRule k (pendingSilent pending)
        unfold Meets
        rw [ran]
        exact kept.unmoved same
  · have after := afterReleased k released
    unfold left
    unfold Parser.after at after
    cases ran : rule k p <;> rwa [ran] at after

theorem Frames.withMode {body : Parse α} (h : Frames body) (m' : Mode) : Frames (withMode m' body) := by
  intro x m d p kept
  have inside := h (kept.setMode m')
  unfold left Parser.withMode at *
  cases ran : body (p.setMode m') with
  | ok a p' =>
      rw [ran] at inside
      exact kept.mode ▸ inside.setMode p.scanner.mode
  | error e p' =>
      rw [ran] at inside
      exact kept.mode ▸ inside.setMode p.scanner.mode

theorem Frames.deeper {body : Parse α} (h : Frames body) : Frames (deeper body) := by
  intro x m d p kept
  by_cases full : p.config.maxDepth ≤ p.depth
  · simp only [left, Parser.deeper, Bind.bind, EStateM.bind, enterFull full]
    exact kept.unmoved ⟨rfl, rfl, rfl, Scanner.currentForesees _⟩
  · have inside : Framed x m (d + 1) (left body { p with depth := p.depth + 1 }) :=
      h ⟨⟨kept.config, congrArg (· + 1) kept.depth, kept.mode, kept.file, kept.lastEnd, kept.valid⟩, kept.released⟩
    simp only [left, Parser.deeper, Bind.bind, EStateM.bind, enterRoom (Nat.lt_of_not_le full)] at *
    cases ran : body { p with depth := p.depth + 1 } with
    | ok a p' =>
        rw [ran] at inside
        exact ⟨inside.toKeeps.leave, inside.released⟩
    | error e p' =>
        rw [ran] at inside
        exact ⟨inside.toKeeps.leave, inside.released⟩

theorem framesManyWithin {rule : Rule α} (h : Frames rule) (bound : List Char) : Frames (manyWithin rule bound) := by
  induction bound with
  | nil => exact h.either (framesPure _) fun _ => framesThrow _
  | cons _ bound ih => exact h.either (framesPure _) fun _ => ih.bind fun _ => framesPure _

theorem Frames.many {rule : Rule α} (h : Frames rule) : Frames (many rule) :=
  fun _ _ _ p kept => framesManyWithin h p.scanner.cursor.rest kept

theorem Frames.list {item : Rule α} (h : Frames item) (separators : List String) :
    Frames (separatedList item separators) := by
  have more : Frames (separatedItem item separators) :=
    (framesConsume separators).either (framesPure _) fun _ => h.required.bind fun _ => framesPure _
  exact h.either (framesPure _) fun _ => more.many.bind fun _ => framesPure _

theorem framesAssert (claim : Prop) [Decidable claim] : Frames (assert claim) := by
  refine framesStill fun p => ?_
  unfold left
  rw [assertEq]
  by_cases failed : p.asserting = true ∧ ¬claim
  · rw [if_pos failed]
  · rw [if_neg failed]

theorem framesJoin (join : Join) (n : Node) (right : Separated (Node × Position)) :
    Frames (joinOperand join n right) := by
  refine (framesPure _).bind fun node => framesLastEnd.bind fun last => ?_
  exact (framesAssert _).bind fun _ => (framesStill fun _ => rfl).bind fun _ => framesPure _

theorem Frames.fold {operand : Rule Node} (h : Frames operand) (operators : List String) (join : Join) :
    Frames (leftFold operand operators join) := by
  have ended : Frames (operandWithEnd operand) :=
    h.either (framesPure _) fun _ => framesLastEnd.bind fun _ => framesPure _
  have joined (others : List (Separated (Node × Position))) (n : Node) :
      Frames (others.foldlM (joinOperand join) n) := by
    induction others generalizing n with
    | nil => exact framesPure n
    | cons other others ih =>
        rw [List.foldlM_cons]
        exact (framesJoin join n other).bind ih
  refine (ended.list operators).bind fun items => ?_
  cases items with
  | nil => exact framesPure _
  | cons first others => exact (joined others _).bind fun _ => framesPure _

theorem Tentative.frames (h : Tentative step) : Frames step := by
  induction h with
  | pure a => exact framesPure a
  | fail h => exact framesThrow h
  | bind _ _ first rest => exact first.bind rest
  | attempt _ tried => exact fun _ _ _ _ kept => tried kept
  | current => exact framesCurrent
  | peek => exact framesPeek
  | atEnd => exact framesAtEnd
  | lastEnd => exact framesLastEnd
  | advance => exact framesAdvance
  | consume ps => exact framesConsume ps
  | rule k => exact framesRule k
  | withMode m _ inside => exact inside.withMode m
  | deeper _ inside => exact inside.deeper
  | list _ separators each => exact each.list separators
  | fold _ operators join each => exact each.fold operators join

end Frames

def speculated (step : Parse α) (p : Parser) : Parser :=
  { left step p with scanner := (left step p).scanner.rewind p.scanner.checkpoint }

theorem speculatedDrops {step : Parse α} (valid : p.scanner.Valid) (released : p.asserting = false)
    (tentative : Tentative step) :
    speculated step p = { p with scanner := { p.scanner with ahead := [] } } := by
  have before : Framed ⟨p.config, p.scanner.file⟩ p.scanner.mode p.depth p :=
    ⟨⟨rfl, rfl, rfl, rfl, Nat.zero_le _, valid⟩, released⟩
  obtain ⟨⟨config, depth, mode, file, -, -⟩, unchecked⟩ := tentative.frames before
  rw [← released] at unchecked
  unfold speculated
  generalize left step p = tried at *
  obtain ⟨⟨_, _, _, _, _⟩, _, _, _⟩ := tried
  simp only at config depth mode file unchecked
  subst config depth mode file unchecked
  rfl

end Parser

def Scanner.UpToDate (s : Scanner) : Prop := Linked (fun c a => lex? s.file s.mode c = some a) s.cursor s.ahead

namespace Scanner

variable {s s' : Scanner}

theorem UpToDate.foresees (h : s.UpToDate) (more : Foresees s s') : s'.UpToDate := by
  induction more with
  | refl => exact h
  | @more s' _ ih =>
      unfold UpToDate at *
      rw [readAheadOf]
      cases found : lex? s'.file s'.mode (frontier s'.cursor s'.ahead) with
      | none => simpa using ih
      | some a => exact linkedMore ih found

theorem UpToDate.unbuffers (h : s.UpToDate) : Unbuffers true s ⟨s.cursor, s.lastEnd, s.mode, none, s.file⟩ := by
  have fresh : ∀ {c as}, Linked (fun c a => lex? s.file s.mode c = some a) c as →
      Linked (Fresh true s.file s.mode) c as := by
    intro c as linked
    induction as generalizing c with
    | nil => trivial
    | cons a as ih => exact ⟨lexFresh linked.1, ih linked.2⟩
  exact ⟨rfl, rfl, rfl, rfl, fresh h⟩

end Scanner

section Traceless

variable {α : Type} {source : String} {config : Config} {file : Option String} {p : Parser} {step : Parse α}

theorem speculatedMatching (reachable : Reachable source config file p) (upToDate : p.scanner.UpToDate)
    (tentative : Tentative step) : Matching (speculated step p) p := by
  rw [speculatedDrops reachable.valid reachable.released tentative]
  have dropped : Scanner.UpToDate { p.scanner with ahead := [] } := trivial
  exact ⟨rfl, rfl, rfl, _, dropped.unbuffers, upToDate.unbuffers⟩

/-- Speculation leaves no trace: once the checkpoint is gone back to, every request is answered as if there had been
none. Only where trivia is skipped must the current token be read ahead in both parsers or in neither. -/
theorem speculationTraceless (reachable : Reachable source config file p) (upToDate : p.scanner.UpToDate)
    (tentative : Tentative step) (marks : List Checkpoint) (later : List Request)
    (heedful : Client.Heedful later ⟨speculated step p, marks⟩ ⟨p, marks⟩) :
    Client.run later ⟨speculated step p, marks⟩ = Client.run later ⟨p, marks⟩ := by
  have alike : Client.Alike ⟨speculated step p, marks⟩ ⟨p, marks⟩ :=
    ⟨speculatedMatching reachable upToDate tentative, rfl⟩
  exact alike.ran later heedful

theorem elementTraceless : ∃ p, Reachable "/**/<a" {} none p ∧ p.scanner.ahead.length = 2 ∧
    (outcome (rule .element) p).toOption.isNone = true ∧
    Client.run [.scan .current, .scan (.skipTrivia false), .rule .expression] ⟨speculated (rule .element) p, []⟩ =
      Client.run [.scan .current, .scan (.skipTrivia false), .rule .expression] ⟨p, []⟩ := by
  have peeked : Reachable "/**/<a" {} none _ := Reachable.start.step (.scanner (.peek _))
  have started : (Scanner.start "/**/<a" none).UpToDate := trivial
  refine ⟨_, peeked, by decide +kernel, by decide +kernel, ?_⟩
  apply speculationTraceless peeked (started.foresees (Scanner.peekForesees _)) (.rule _)
  decide +kernel

theorem skippedCommentsMissing : ∃ p, Reachable "/*c*/ a" {} none p ∧ p.scanner.UpToDate ∧ Tentative advance ∧
    Client.run [.scan (.skipTrivia false), .scan .current] ⟨speculated advance p, []⟩ ≠
      Client.run [.scan (.skipTrivia false), .scan .current] ⟨p, []⟩ := by
  have looked : Reachable "/*c*/ a" {} none _ := Reachable.start.step (.scanner (.current _))
  have started : (Scanner.start "/*c*/ a" none).UpToDate := trivial
  refine ⟨_, looked, started.foresees (Scanner.currentForesees _), .advance, fun same => ?_⟩
  have comments := congrArg (List.map fun shown => shown.token?.map (·.comments.length)) same
  revert comments
  decide +kernel

end Traceless

end JsxTree
