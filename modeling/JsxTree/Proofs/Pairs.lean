import JsxTree.Proofs.Attention

/-! Two parses side by side. A pairing relates states from which every step comes to the same on both sides: to one
result and to related states again, or to one error, unless the first side ends early in a way of its own. -/
namespace JsxTree

open JsxTree.Parser

inductive Matched {α : Type} (rel failing : Parser → Parser → Prop) (shared : ParseError → Prop) (early : Halt → Prop) :
    EStateM.Result Halt Parser α → EStateM.Result Halt Parser α → Prop where
  | same {a p q} (related : rel p q) : Matched rel failing shared early (.ok a p) (.ok a q)
  | both {h p q} (related : failing p q) (raised : ∀ e, h = .error e → shared e) :
      Matched rel failing shared early (.error h p) (.error h q)
  | alone {h p r} (raised : early h) : Matched rel failing shared early (.error h p) r

def Answered {α : Type} (rel : Parser → Parser → Prop) (f : Scanner → α × Scanner) (p q : Parser) : Prop :=
  (f p.scanner).1 = (f q.scanner).1 ∧ rel { p with scanner := (f p.scanner).2 } { q with scanner := (f q.scanner).2 }

structure Abreast (p q : Parser) : Prop where
  cursor : p.scanner.cursor = q.scanner.cursor
  lastEnd : p.scanner.lastEnd = q.scanner.lastEnd
  mode : p.scanner.mode = q.scanner.mode
  file : p.scanner.file = q.scanner.file
  jsx : p.config.jsx = q.config.jsx

theorem assertsAlike {rel failing : Parser → Parser → Prop} {shared : ParseError → Prop} {early : Halt → Prop} {p q : Parser}
    (same : p.asserting = q.asserting) (related : rel p q) (failed : failing p q) (claim : Prop) [Decidable claim] :
    Matched rel failing shared early (Parser.assert claim p) (Parser.assert claim q) := by
  rw [assertEq, assertEq, same]
  split
  · refine .both failed fun e halted => ?_
    cases halted
  · exact .same related

structure Pairing where
  rel : Nat → Parser → Parser → Prop
  failing : Nat → Parser → Parser → Prop
  shared : ParseError → Prop
  early : Halt → Prop
  /-- What is asked of a scanner whose current token is out of place; a look at the token is enough. -/
  ready : Scanner → Prop
  looked : ∀ ⦃s⦄, s.Looked → ready s
  abreast : ∀ ⦃b p q⦄, rel b p q → Abreast p q
  current : ∀ ⦃b p q⦄, rel b p q → Answered (rel b) Scanner.current p q
  peek : ∀ ⦃b p q⦄, rel b p q → Answered (rel b) Scanner.peek p q
  advance : ∀ ⦃b p q⦄, rel b p q → Answered (rel b) Scanner.advance p q
  readText : ∀ ⦃b p q⦄, rel b p q → Answered (rel b) Scanner.readText p q
  setMode : ∀ ⦃b p q⦄ (m : Mode), rel b p q → rel b (p.setMode m) (q.setMode m)
  unexpected : ∀ ⦃b p q⦄, rel b p q → ready p.scanner → ready q.scanner → ∃ e p' q',
    Parser.unexpected none p = .ok e p' ∧ Parser.unexpected none q = .ok e q' ∧ failing b p' q' ∧ shared e
  mismatched : ∀ opening closing, shared (Grammar.mismatchedClosingTag opening closing)
  enter : ∀ ⦃b p q⦄, rel (b + 1) p q →
    Matched (rel b) (failing (b + 1)) shared early (Parser.enter p) (Parser.enter q)
  leave : ∀ ⦃b p q p' q'⦄, rel (b + 1) p q → rel b p' q' → rel (b + 1) p'.leave q'.leave
  fails : ∀ ⦃b p q⦄, rel b p q → failing b p q
  failingMode : ∀ ⦃b p q⦄ (m : Mode), failing b p q → failing b (p.setMode m) (q.setMode m)
  asserts : ∀ ⦃b p q⦄ (claim : Prop) [Decidable claim], rel b p q →
    Matched (rel b) (failing b) shared early (Parser.assert claim p) (Parser.assert claim q)
  failingLeave : ∀ ⦃b p q p' q'⦄, rel (b + 1) p q → failing b p' q' → failing (b + 1) p'.leave q'.leave

namespace Parser

variable {α β : Type} {w : Pairing} {b : Nat}

def Alongside (w : Pairing) (b : Nat) (step step' : Parse α) : Prop :=
  ∀ ⦃p q⦄, w.rel b p q → Matched (w.rel b) (w.failing b) w.shared w.early (step p) (step' q)

abbrev Paired (w : Pairing) (b : Nat) (step : Parse α) : Prop := Alongside w b step step

def Attends (w : Pairing) (rule : Parse (Option α)) : Prop := ∀ ⦃p p'⦄, rule p = .ok none p' → w.ready p'.scanner

theorem Attentive.attends {rule : Parse (Option α)} (h : Attentive rule) : Attends w rule := fun _ _ ran => w.looked (h ran)

theorem deeperAttends {rule : Parse (Option α)} (h : Attends w rule) : Attends w (deeper rule) := by
  intro p p' ran
  obtain ⟨_, p₁, -, rest⟩ := ranBind ran
  cases inside : rule p₁ with
  | ok r p₂ =>
      simp only [inside, EStateM.Result.ok.injEq] at rest
      obtain ⟨rfl, rfl⟩ := rest
      have ready := h inside
      exact ready
  | error e p₂ =>
      simp only [inside] at rest
      cases rest

section Calculus

variable {step step' : Parse α} {next next' : α → Parse β}

theorem Alongside.run {p q : Parser} (h : Alongside w b step step') (related : w.rel b p q) :
    Matched (w.rel b) (w.failing b) w.shared w.early (step p) (step' q) := h related

theorem pairedPure (a : α) : Paired w b (pure a) := fun _ _ related => .same related

theorem Alongside.bind (first : Alongside w b step step') (rest : ∀ a, Alongside w b (next a) (next' a)) :
    Alongside w b (step >>= next) (step' >>= next') := by
  intro p q related
  have run := first related
  change Matched _ _ _ _ (EStateM.bind step next p) (EStateM.bind step' next' q)
  unfold EStateM.bind
  generalize step p = left at *
  generalize step' q = right at *
  cases run with
  | same related' => exact rest _ related'
  | both related' raised => exact .both related' raised
  | alone raised => exact .alone raised

theorem Alongside.either {rule rule' : Rule α} {next next' : Option α → Parse β} (first : Alongside w b rule rule')
    (absent : Alongside w b (next none) (next' none)) (present : ∀ a, Alongside w b (next (some a)) (next' (some a))) :
    Alongside w b (rule >>= next) (rule' >>= next') := by
  apply first.bind
  intro r
  cases r with
  | none => exact absent
  | some a => exact present a

theorem Alongside.attended {rule rule' : Rule α} {next next' : Option α → Parse β} (first : Alongside w b rule rule')
    (attends : Attends w rule) (attends' : Attends w rule')
    (absent : ∀ ⦃p q⦄, w.rel b p q → w.ready p.scanner → w.ready q.scanner →
      Matched (w.rel b) (w.failing b) w.shared w.early (next none p) (next' none q))
    (present : ∀ a, Alongside w b (next (some a)) (next' (some a))) : Alongside w b (rule >>= next) (rule' >>= next') := by
  intro p q related
  have run := first related
  change Matched _ _ _ _ (EStateM.bind rule next p) (EStateM.bind rule' next' q)
  unfold EStateM.bind
  generalize left : rule p = r at *
  generalize right : rule' q = r' at *
  cases run with
  | @same a _ _ related' =>
      cases a with
      | none => exact absent related' (attends left) (attends' right)
      | some a => exact present a related'
  | both related' raised => exact .both related' raised
  | alone raised => exact .alone raised

theorem pairedThrow {h : Halt} (raised : ∀ e, h = .error e → w.shared e) : Paired w b (throw h : Parse α) :=
  fun _ _ related => .both (w.fails related) raised

theorem pairedFail {e : ParseError} (raised : w.shared e) : Paired w b (fail e : Parse α) := by
  apply pairedThrow
  intro e' same
  cases same
  exact raised

theorem pairedScan {f : Scanner → α × Scanner} (h : ∀ ⦃p q⦄, w.rel b p q → Answered (w.rel b) f p q) :
    Paired w b (scan f) := by
  intro p q related
  obtain ⟨answer, related'⟩ := h related
  unfold scan
  rw [answer]
  exact .same related'

theorem pairedRead {read : Parser → α} (h : ∀ ⦃p q⦄, w.rel b p q → read p = read q) :
    Paired w b (fun p => .ok (read p) p) := by
  intro p q related
  dsimp only
  rw [h related]
  exact .same related

end Calculus

section Primitives

theorem pairedCurrent : Paired w b current := pairedScan (w.current (b := b))

theorem pairedPeek : Paired w b peek := pairedScan (w.peek (b := b))

theorem pairedAdvance : Paired w b advance := pairedScan (w.advance (b := b))

theorem pairedReadText : Paired w b readText := pairedScan (w.readText (b := b))

theorem pairedConsume (ps : List String) : Paired w b (consume ps) := by
  apply pairedScan
  intro p q related
  obtain ⟨token, related'⟩ := w.current related
  simp only [Answered, Scanner.consume]
  rw [token]
  split
  · exact w.advance related'
  · exact ⟨rfl, related'⟩

theorem pairedLastEnd : Paired w b lastEnd := pairedRead fun _ _ related => (w.abreast related).lastEnd

theorem pairedSpanOf (start stop : Position) : Paired w b (spanOf start stop) := by
  apply pairedRead
  intro p q related
  rw [(w.abreast related).file]

theorem pairedCurrentIs (p : String) : Paired w b (currentIs p) := pairedCurrent.bind fun _ => pairedPure _

theorem pairedPeekIs (p : String) : Paired w b (peekIs p) := pairedPeek.bind fun _ => pairedPure _

theorem pairedFailUnexpected {p q : Parser} (related : w.rel b p q)
    (ready : w.ready p.scanner) (ready' : w.ready q.scanner) :
    Matched (w.rel b) (w.failing b) w.shared w.early ((failUnexpected : Parse α) p) ((failUnexpected : Parse α) q) := by
  obtain ⟨e, p', q', left, right, related', raised⟩ := w.unexpected related ready ready'
  change Matched _ _ _ _ (EStateM.bind (Parser.unexpected none) fail p) (EStateM.bind (Parser.unexpected none) fail q)
  simp only [EStateM.bind, left, right]
  refine .both related' fun e' same => ?_
  cases same
  exact raised

theorem Alongside.required {rule rule' : Rule α} (h : Alongside w b rule rule')
    (attends : Attends w rule) (attends' : Attends w rule') :
    Alongside w b (required rule) (required rule') :=
  h.attended attends attends' (fun _ _ => pairedFailUnexpected) pairedPure

theorem pairedExpect (p : String) : Paired w b (expect p) :=
  (pairedConsume [p]).attended (attentiveConsume _).attends (attentiveConsume _).attends
    (fun _ _ => pairedFailUnexpected) pairedPure

theorem Alongside.withMode {body body' : Parse α} (h : Alongside w b body body') (m : Mode) :
    Alongside w b (withMode m body) (withMode m body') := by
  intro p q related
  have run := h (w.setMode m related)
  unfold Parser.withMode
  rw [(w.abreast related).mode]
  generalize body (p.setMode m) = left at *
  generalize body' (q.setMode m) = right at *
  cases run with
  | same related' => exact .same (w.setMode _ related')
  | both related' raised => exact .both (w.failingMode _ related') raised
  | alone raised => exact .alone raised

theorem Alongside.deeper {body body' : Parse α} (h : Alongside w b body body') :
    Alongside w (b + 1) (deeper body) (deeper body') := by
  intro p q related
  have entered := w.enter related
  change Matched _ _ _ _ (EStateM.bind enter _ p) (EStateM.bind enter _ q)
  unfold EStateM.bind
  generalize enter p = left at *
  generalize enter q = right at *
  cases entered with
  | both related' raised => exact .both related' raised
  | alone raised => exact .alone raised
  | @same _ p' q' related' =>
      have run := h related'
      dsimp only
      generalize body p' = left at *
      generalize body' q' = right at *
      cases run with
      | same inside => exact .same (w.leave related inside)
      | both inside raised => exact .both (w.failingLeave related inside) raised
      | alone raised => exact .alone raised

section Nodes

theorem pairedCurrentPosition : Paired w b currentPosition :=
  pairedCurrent.either pairedLastEnd fun _ => pairedPure _

theorem pairedOpen (kind : Kind) (start : Start) : Paired w b (openNode kind start) := by
  cases start with
  | position p => exact pairedPure _
  | token t => exact pairedPure _
  | node n => exact pairedPure _
  | firstOf ns =>
      cases ns with
      | nil => exact pairedCurrentPosition.bind fun _ => pairedPure _
      | cons n ns => exact pairedPure _
  | current => exact pairedCurrentPosition.bind fun _ => pairedPure _

theorem pairedAssert (claim : Prop) [Decidable claim] : Paired w b (assert claim) := fun _ _ related => w.asserts claim related

theorem pairedComplete (node : OpenNode) (form : Form Node) (stop : Option Position) :
    Paired w b (complete node form stop) := by
  apply pairedLastEnd.bind
  intro last
  exact (pairedAssert _).bind fun _ => (pairedSpanOf _ _).bind fun _ => pairedPure _

theorem pairedNode (kind : Kind) (start : Start) (form : Form Node) (stop : Option Position) :
    Paired w b (do let node ← openNode kind start; complete node form stop) :=
  (pairedOpen kind start).bind fun _ => pairedComplete _ _ _

theorem pairedSomeNode (kind : Kind) (start : Start) (form : Form Node) (stop : Option Position) :
    Paired w b (do let node ← openNode kind start; return some (← complete node form stop)) :=
  (pairedOpen kind start).bind fun _ => (pairedComplete _ _ _).bind fun _ => pairedPure _

end Nodes

end Primitives

section Repetition

variable {rule rule' : Rule α}

theorem pairedExhausted : Paired w b (throw .exhausted : Parse α) := by
  apply pairedThrow
  intro e same
  cases same

theorem pairedManyWithin (h : Alongside w b rule rule') (bound : List Char) :
    Alongside w b (manyWithin rule bound) (manyWithin rule' bound) := by
  induction bound with
  | nil => exact h.either (pairedPure _) fun _ => pairedExhausted
  | cons _ bound ih => exact h.either (pairedPure _) fun _ => ih.bind fun _ => pairedPure _

theorem Alongside.many (h : Alongside w b rule rule') : Alongside w b (many rule) (many rule') := by
  intro p q related
  have run := pairedManyWithin h p.scanner.cursor.rest related
  unfold Parser.many
  rwa [← (w.abreast related).cursor]

theorem pairedGrowWithin {step step' : α → Rule α} (h : ∀ a, Alongside w b (step a) (step' a)) (bound : List Char) (a : α) :
    Alongside w b (growWithin step bound a) (growWithin step' bound a) := by
  induction bound generalizing a with
  | nil => exact (h a).either (pairedPure _) fun _ => pairedExhausted
  | cons _ bound ih => exact (h a).either (pairedPure _) ih

theorem pairedGrow {step step' : α → Rule α} (h : ∀ a, Alongside w b (step a) (step' a)) (a : α) :
    Alongside w b (grow step a) (grow step' a) := by
  intro p q related
  have run := pairedGrowWithin h p.scanner.cursor.rest a related
  unfold Parser.grow
  rwa [← (w.abreast related).cursor]

theorem pairedSeparatedItem (h : Alongside w b rule rule') (separators : List String)
    (attends : Attends w rule) (attends' : Attends w rule') :
    Alongside w b (separatedItem rule separators) (separatedItem rule' separators) :=
  (pairedConsume separators).either (pairedPure _) fun _ => (h.required attends attends').bind fun _ => pairedPure _

theorem pairedSeparatedList (h : Alongside w b rule rule') (separators : List String)
    (attends : Attends w rule) (attends' : Attends w rule') :
    Alongside w b (separatedList rule separators) (separatedList rule' separators) :=
  h.either (pairedPure _) fun _ => (pairedSeparatedItem h separators attends attends').many.bind fun _ => pairedPure _

theorem pairedFold {step : Node → β → Parse Node} (h : ∀ n b', Paired w b (step n b')) (bs : List β) (n : Node) :
    Paired w b (bs.foldlM step n) := by
  induction bs generalizing n with
  | nil => exact pairedPure n
  | cons b' bs ih =>
      rw [List.foldlM_cons]
      exact (h n b').bind ih

theorem pairedLeftFold {operand operand' : Rule Node} (h : Alongside w b operand operand') (operators : List String)
    (join : Join) (attends : Attentive operand) (attends' : Attentive operand') :
    Alongside w b (leftFold operand operators join) (leftFold operand' operators join) := by
  have ended : Alongside w b (operandWithEnd operand) (operandWithEnd operand') :=
    h.either (pairedPure _) fun _ => pairedLastEnd.bind fun _ => pairedPure _
  apply (pairedSeparatedList ended operators attends.operandWithEnd.attends attends'.operandWithEnd.attends).bind
  intro items
  cases items with
  | nil => exact pairedPure _
  | cons first others => exact (pairedFold (fun _ _ => pairedNode _ _ _ _) _ _).bind fun _ => pairedPure _

end Repetition

end Parser

end JsxTree
