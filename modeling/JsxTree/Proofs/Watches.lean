import JsxTree.Proofs.Outcome

/-! Watches over a parse. A watch says what a scanner keeps through every call, in the mode that it is in and beyond the
cursor that the watch began at, and what then holds of the errors raised. Whatever a step comes to, match, no match or
error, it upholds the watch; errors have three origins, and no others. -/
namespace JsxTree

open JsxTree.Parser

structure Watch where
  scanner : Mode → Cursor → Scanner → Prop
  error : ParseError → Scanner → Prop
  mode : ∀ ⦃m b s⦄, scanner m b s → s.mode = m
  current : ∀ ⦃m b s⦄, scanner m b s → scanner m b s.current.2
  peek : ∀ ⦃m b s⦄, scanner m b s → scanner m b s.peek.2
  advance : ∀ ⦃m b s⦄, scanner m b s → scanner m b s.advance.2
  text : ∀ ⦃m b s⦄, scanner m b s → scanner m b s.readText.2.advance.2
  setMode : ∀ ⦃m b s⦄ (m' : Mode), scanner m b s → scanner m' b (s.setMode m')
  restored : ∀ ⦃e s⦄ (m : Mode), error e s → error e (s.setMode m)
  unexpected : ∀ ⦃m b p⦄, scanner m b p.scanner →
    Meets (Parser.unexpected none) p (fun e p' => error e p'.scanner) fun _ _ => False
  tooDeep : ∀ ⦃m b p⦄, scanner m b p.scanner → Meets currentSpan p (fun s p' =>
    error ⟨"maximum nesting depth exceeded", s, .depthExceeded p.config.maxDepth, []⟩ p'.scanner) fun _ _ => False

namespace Parser

variable {α β : Type} {w : Watch} {m m' : Mode} {b b' : Cursor} {p : Parser}

def Raises (w : Watch) : Halt → Scanner → Prop
  | .error e, s => w.error e s
  | .exhausted, _ | .misshapen, _ => True

def Comes (w : Watch) (m : Mode) (b : Cursor) : EStateM.Result Halt Parser α → Prop
  | .ok _ p => w.scanner m b p.scanner
  | .error h p => Raises w h p.scanner

def Upholds (w : Watch) (step : Parse α) : Prop :=
  ∀ ⦃m b⦄ (p : Parser), w.scanner m b p.scanner → Comes w m b (step p)

section Calculus

variable {step : Parse α}

theorem Comes.bind {next : α → Parse β} (first : Comes w m b (step p))
    (rest : ∀ a p', w.scanner m b p'.scanner → Comes w m' b' (next a p')) : Comes w m' b' ((step >>= next) p) := by
  change Comes w m' b' (EStateM.bind step next p)
  unfold EStateM.bind
  cases ran : step p with
  | ok a p' =>
      rw [ran] at first
      exact rest a p' first
  | error h p' =>
      rw [ran] at first
      exact first

theorem comesScan {f : Scanner → α × Scanner} {next : α → Parse β}
    (rest : Comes w m b (next (f p.scanner).1 { p with scanner := (f p.scanner).2 })) :
    Comes w m b ((scan f >>= next) p) := rest

theorem comesMeets {good : α → Parser → Prop} {next : α → Parse β}
    (first : Meets step p good fun e p' => w.error e p'.scanner)
    (rest : ∀ a p', good a p' → Comes w m b (next a p')) : Comes w m b ((step >>= next) p) := by
  unfold Meets at first
  change Comes w m b (EStateM.bind step next p)
  unfold EStateM.bind
  cases ran : step p with
  | ok a p' =>
      rw [ran] at first
      exact rest a p' first
  | error h p' =>
      rw [ran] at first
      cases h with
      | error e => exact first
      | exhausted | misshapen => exact first.elim

theorem Upholds.meets {good : α → Parser → Prop} {bad : ParseError → Parser → Prop} (h : Upholds w step)
    (watched : w.scanner m b p.scanner) (run : Meets step p good bad) :
    Meets step p (fun a p' => good a p' ∧ w.scanner m b p'.scanner) fun e p' => w.error e p'.scanner := by
  have kept := h p watched
  unfold Meets at *
  cases ran : step p with
  | ok a p' =>
      rw [ran] at run kept
      exact ⟨run, kept⟩
  | error halt p' =>
      rw [ran] at run kept
      cases halt with
      | error e => exact kept
      | exhausted | misshapen => exact run

theorem holds {a : α} : Upholds w (pure a) := fun _ _ _ watched => watched

theorem Upholds.bind {next : α → Parse β} (first : Upholds w step) (rest : ∀ a, Upholds w (next a)) :
    Upholds w (step >>= next) :=
  fun _ _ p watched => (first p watched).bind fun a p' => rest a p'

theorem Upholds.either {rule : Rule α} {next : Option α → Parse β} (first : Upholds w rule) (absent : Upholds w (next none))
    (present : ∀ a, Upholds w (next (some a))) : Upholds w (rule >>= next) :=
  first.bind fun r => by
    cases r with
    | none => exact absent
    | some a => exact present a

theorem upholdsThrow {h : Halt} (raised : ∀ s, Raises w h s) : Upholds w (throw h : Parse α) := fun _ _ p _ => raised p.scanner

theorem upholdsScan {f : Scanner → α × Scanner} (h : ∀ ⦃m b s⦄, w.scanner m b s → w.scanner m b (f s).2) :
    Upholds w (scan f) := fun _ _ _ watched => h watched

end Calculus

section Primitives

theorem upholdsCurrent : Upholds w current := upholdsScan w.current

theorem upholdsPeek : Upholds w peek := upholdsScan w.peek

theorem upholdsAdvance : Upholds w advance := upholdsScan w.advance

theorem upholdsConsume (ps : List String) : Upholds w (consume ps) := by
  refine upholdsScan fun m b s watched => ?_
  have current := w.current watched
  simp only [Scanner.consume]
  split
  · exact w.advance current
  · exact current

theorem upholdsAtEnd : Upholds w atEnd := upholdsScan w.current

theorem upholdsLastEnd : Upholds w lastEnd := fun _ _ _ watched => watched

theorem upholdsCurrentIs (o : String) : Upholds w (currentIs o) := upholdsCurrent.bind fun _ => holds

theorem upholdsPeekIs (o : String) : Upholds w (peekIs o) := upholdsPeek.bind fun _ => holds

theorem upholdsFailUnexpected : Upholds w (failUnexpected : Parse α) :=
  fun _ _ _ watched => comesMeets ((w.unexpected watched).weaken (fun _ _ => id) fun _ _ => False.elim) fun _ _ => id

theorem Upholds.required {rule : Rule α} (h : Upholds w rule) : Upholds w (required rule) :=
  h.either upholdsFailUnexpected fun _ => holds

theorem upholdsExpect (o : String) : Upholds w (expect o) := (upholdsConsume [o]).either upholdsFailUnexpected fun _ => holds

theorem comesWithMode {body : Parse α} (watched : w.scanner m b p.scanner) (run : Comes w m' b (body (p.setMode m'))) :
    Comes w m b (withMode m' body p) := by
  unfold Parser.withMode
  rw [w.mode watched]
  cases ran : body (p.setMode m') with
  | ok a p' =>
      rw [ran] at run
      exact w.setMode m run
  | error halt p' =>
      rw [ran] at run
      cases halt with
      | error e => exact w.restored m run
      | exhausted | misshapen => trivial

theorem Upholds.withMode {body : Parse α} (h : Upholds w body) (m : Mode) : Upholds w (withMode m body) :=
  fun _ _ p watched => comesWithMode watched (h (p.setMode m) (w.setMode m watched))

theorem upholdsEnter : Upholds w enter := by
  intro m b p watched
  have unfolded : enter p = (if p.config.maxDepth ≤ p.depth then
      currentSpan >>= fun s => fail ⟨"maximum nesting depth exceeded", s, .depthExceeded p.config.maxDepth, []⟩
    else set { p with depth := p.depth + 1 } : Parse Unit) p := rfl
  rw [unfolded]
  split
  · exact comesMeets ((w.tooDeep watched).weaken (fun _ _ => id) fun _ _ => False.elim) fun _ _ => id
  · exact watched

theorem Upholds.deeper {body : Parse α} (h : Upholds w body) : Upholds w (deeper body) := by
  refine upholdsEnter.bind fun _ m b p watched => ?_
  have run := h p watched
  cases ran : body p with
  | ok a p' =>
      rw [ran] at run
      exact run
  | error e p' =>
      rw [ran] at run
      exact run

section Nodes

theorem upholdsCurrentPosition : Upholds w currentPosition := upholdsCurrent.either upholdsLastEnd fun _ => holds

theorem upholdsOpen (kind : Kind) (start : Start) : Upholds w (openNode kind start) := by
  cases start with
  | position | token | node => exact holds
  | firstOf ns =>
      cases ns with
      | nil => exact upholdsCurrentPosition.bind fun _ => holds
      | cons => exact holds
  | current => exact upholdsCurrentPosition.bind fun _ => holds

theorem upholdsAssert {claim : Prop} [Decidable claim] : Upholds w (assert claim) := by
  intro m b p watched
  rw [assertEq]
  split
  · exact trivial
  · exact watched

theorem upholdsComplete {node : OpenNode} {form : Form Node} {stop : Option Position} :
    Upholds w (complete node form stop) := by
  refine upholdsLastEnd.bind fun last => upholdsAssert.bind fun _ => ?_
  have spanned : Upholds w (spanOf node.start (stop.getD last)) := fun _ _ _ watched => watched
  exact spanned.bind fun _ => holds

theorem upholdsNode (kind : Kind) (start : Start) {form : Form Node} {stop : Option Position} :
    Upholds w (do let node ← openNode kind start; complete node form stop) :=
  (upholdsOpen kind start).bind fun _ => upholdsComplete

theorem upholdsSomeNode (kind : Kind) (start : Start) {form : Form Node} {stop : Option Position} :
    Upholds w (do let node ← openNode kind start; return some (← complete node form stop)) :=
  (upholdsOpen kind start).bind fun _ => upholdsComplete.bind fun _ => holds

end Nodes

end Primitives

section Repetition

variable {rule : Rule α}

theorem upholdsManyWithin (h : Upholds w rule) (bound : List Char) : Upholds w (manyWithin rule bound) := by
  induction bound with
  | nil => exact h.either holds fun _ => upholdsThrow fun _ => trivial
  | cons _ bound ih => exact h.either holds fun _ => ih.bind fun _ => holds

theorem Upholds.many (h : Upholds w rule) : Upholds w (many rule) :=
  fun _ _ p => upholdsManyWithin h p.scanner.cursor.rest p

theorem upholdsGrowWithin {step : α → Rule α} (h : ∀ a, Upholds w (step a)) (bound : List Char) (a : α) :
    Upholds w (growWithin step bound a) := by
  induction bound generalizing a with
  | nil => exact (h a).either holds fun _ => upholdsThrow fun _ => trivial
  | cons _ bound ih => exact (h a).either holds ih

theorem upholdsGrow {step : α → Rule α} (h : ∀ a, Upholds w (step a)) (a : α) : Upholds w (grow step a) :=
  fun _ _ p => upholdsGrowWithin h p.scanner.cursor.rest a p

theorem upholdsSeparatedList (h : Upholds w rule) (separators : List String) :
    Upholds w (separatedList rule separators) := by
  have item : Upholds w (separatedItem rule separators) :=
    (upholdsConsume separators).either holds fun _ => h.required.bind fun _ => holds
  exact h.either holds fun _ => item.many.bind fun _ => holds

theorem upholdsFold {step : Node → β → Parse Node} (h : ∀ n c, Upholds w (step n c)) (cs : List β) (n : Node) :
    Upholds w (cs.foldlM step n) := by
  induction cs generalizing n with
  | nil => exact holds
  | cons c cs ih =>
      rw [List.foldlM_cons]
      exact (h n c).bind ih

theorem upholdsLeftFold {operand : Rule Node} (h : Upholds w operand) (operators : List String) (join : Join) :
    Upholds w (leftFold operand operators join) := by
  have ended : Upholds w (operandWithEnd operand) := h.either holds fun _ => upholdsLastEnd.bind fun _ => holds
  refine (upholdsSeparatedList ended operators).bind fun items => ?_
  cases items with
  | nil => exact holds
  | cons first others =>
      exact (upholdsFold (fun left _ => upholdsNode join.kind (.node left)) others _).bind fun _ => holds

end Repetition

end Parser

end JsxTree
