import JsxTree.Proofs.Limits
import JsxTree.Proofs.RuleContract

/-! Progress. No rule is entered again before the text left has become shorter, and each round of a loop leaves less of
it; so one call inside another for every character of the source is always enough, whatever the limit on depth. -/
namespace JsxTree

open JsxTree.Parser

section Lasting

def Lasting (I : Scanner → Prop) : Prop := ∀ ⦃s s'⦄, Move s s' → I s → I s'

theorem alwaysLasting : Lasting fun _ => True := fun _ _ _ _ => trivial

def beside {I : Scanner → Prop} (lasting : Lasting I) : Pairing where
  rel _ p q := q = p ∧ I q.scanner
  failing _ p q := q = p ∧ I q.scanner
  shared _ := True
  early h := h = .exhausted
  ready _ := True
  looked _ _ := trivial
  abreast _ _ _ h := h.1 ▸ ⟨rfl, rfl, rfl, rfl, rfl⟩
  current _ _ _ h := h.1 ▸ ⟨rfl, rfl, lasting (.current _) h.2⟩
  peek _ _ _ h := h.1 ▸ ⟨rfl, rfl, lasting (.peek _) h.2⟩
  advance _ _ _ h := h.1 ▸ ⟨rfl, rfl, lasting (.advance _) h.2⟩
  readText _ _ _ h := h.1 ▸ ⟨rfl, rfl, lasting (.readText _) h.2⟩
  setMode _ _ _ m h := h.1 ▸ ⟨rfl, lasting (.setMode m _) h.2⟩
  unexpected := by
    intro b p q h _ _
    obtain ⟨rfl, here⟩ := h
    obtain ⟨e, s, moved, -, runs⟩ := unexpectedOf q.scanner
    have skipped := lasting (.skipTrivia false q.scanner) here
    refine ⟨e, _, _, runs _ _ _, runs _ _ _, ⟨rfl, ?_⟩, trivial⟩
    rcases moved with rfl | rfl
    · exact skipped
    · exact lasting (.current _) skipped
  mismatched _ _ := trivial
  enter := by
    intro b p q h
    obtain ⟨rfl, here⟩ := h
    by_cases full : q.config.maxDepth ≤ q.depth
    · rw [enterFull full]
      exact .both ⟨rfl, lasting (.current _) here⟩ fun _ _ => trivial
    · rw [enterRoom (Nat.lt_of_not_le full)]
      exact .same ⟨rfl, here⟩
  leave _ _ _ _ _ _ h := h.1 ▸ ⟨rfl, h.2⟩
  fails _ _ _ := id
  failingMode _ _ _ m h := h.1 ▸ ⟨rfl, lasting (.setMode m _) h.2⟩
  asserts _ _ _ claim _ h := h.1 ▸ assertsAlike rfl ⟨rfl, h.1 ▸ h.2⟩ ⟨rfl, h.1 ▸ h.2⟩ claim
  failingLeave _ _ _ _ _ _ h := h.1 ▸ ⟨rfl, h.2⟩

variable {α : Type} {I : Scanner → Prop} {lasting : Lasting I} {p : Parser}

theorem besideAttends {rule : Parse (Option α)} : Attends (beside lasting) rule := fun _ _ _ => trivial

theorem besideSame {b : Nat} {step step' : Parse α} (h : Alongside (beside lasting) b step step') (here : I p.scanner) :
    (∃ q, step p = .error .exhausted q) ∨ step p = step' p := by
  have run := h ⟨rfl, here⟩
  generalize step p = r at *
  generalize step' p = r' at *
  cases run with
  | same related => exact .inr (by rw [related.1])
  | both related => exact .inr (by rw [related.1])
  | alone raised => exact .inl ⟨_, by rw [raised]⟩

theorem Lasting.after (lasting : Lasting I) (valid : p.scanner.Valid) (here : I p.scanner) (k : Construct) :
    I (p.after k).scanner := by
  have run := Grammar.pairedWithin (w := beside lasting) (p.scanner.cursor.rest.length + 1) k ⟨rfl, here⟩
  have contract := (validContract k valid).1
  change Matched _ _ _ _ (rule k p) (rule k p) at run
  unfold Contract at contract
  unfold Parser.after
  generalize rule k p = r at *
  cases run with
  | same related => exact related.2
  | both related => exact related.2
  | alone raised =>
      obtain ⟨-, e, same⟩ := contract
      rw [raised] at same
      cases same

theorem Parser.Reachable.lasts {source : String} {config : Config} {file : Option String} (lasting : Lasting I)
    (begun : I (.start source file)) (rewound : ∀ s s', I s → I s' → I (s.rewind s'.checkpoint))
    (h : Reachable source config file p) : I p.scanner := by
  induction h with
  | start => exact begun
  | step before step ih =>
      cases step with
      | scanner move => exact lasting move ih
      | enter | leave => exact ih
      | rule k => exact lasting.after before.valid ih k
  | rewind _ _ now marked => exact rewound _ _ now marked

end Lasting

namespace Scanner

variable {file : Option String} {m : Mode} {c : Cursor} {n : Nat} {s s' : Scanner}

structure Leaves (n : Nat) (s : Scanner) : Prop where
  valid : s.Valid
  cursor : s.cursor.rest.length ≤ n
  ahead : ∀ a ∈ s.ahead, a.after.rest.length ≤ n

theorem frontierLeaves {as : List Ahead} (cursor : c.rest.length ≤ n) (ahead : ∀ a ∈ as, a.after.rest.length ≤ n) :
    (frontier c as).rest.length ≤ n := by
  induction as generalizing c with
  | nil => exact cursor
  | cons a as ih =>
      obtain ⟨first, others⟩ := List.forall_mem_cons.mp ahead
      exact ih first others

theorem Leaves.readAhead (h : s.Leaves n) : ∀ a ∈ s.readAhead.ahead, a.after.rest.length ≤ n := by
  rw [readAheadOf]
  intro a inside
  rcases List.mem_append.mp inside with already | new
  · exact h.ahead a already
  · have advances := Cursor.nextAdvances (lexAgrees (Option.mem_toList.mp new)).1
    exact Nat.le_trans (Nat.le_of_lt advances.shorter) (frontierLeaves h.cursor h.ahead)

theorem Leaves.foresees (h : s.Leaves n) (more : Foresees s s') : s'.Leaves n := by
  induction more with
  | refl => exact h
  | @more s' _ ih =>
      have same := (readAheadSame s').1
      exact ⟨ih.valid.foresees (.more (.refl s')), by rw [same]; exact ih.cursor, ih.readAhead⟩

theorem Leaves.advance (h : s.Leaves n) : s.advance.2.Leaves n := by
  have filled := h.foresees (fillForesees 1 s)
  have valid := h.valid.advance
  simp only [Scanner.advance] at *
  cases ahead : (s.fill 1).ahead with
  | nil => exact filled
  | cons a as =>
      rw [ahead] at valid
      obtain ⟨first, others⟩ := List.forall_mem_cons.mp (ahead ▸ filled.ahead)
      exact ⟨valid, first, others⟩

theorem Leaves.readText (h : s.Leaves n) : s.readText.2.Leaves n := by
  have valid := h.valid.readText
  simp only [Scanner.readText] at *
  cases found : Lexeme.jsxText? s.cursor.rest with
  | none => exact h
  | some l =>
      rw [found] at valid
      have reached : s.cursor.Reaches ⟨s.cursor.place.past l.raw, l.rest⟩ :=
        ⟨l.raw, (Lexeme.jsxTextCuts found).splits, rfl⟩
      exact ⟨valid, h.cursor, List.forall_mem_singleton.mpr (Nat.le_trans reached.length h.cursor)⟩

theorem leavesLasting (n : Nat) : Lasting (Leaves n) := by
  intro s s' move h
  have valid := move.valid h.valid
  cases move with
  | current | atEnd => exact h.foresees (currentForesees s)
  | peek => exact h.foresees (peekForesees s)
  | advance => exact h.advance
  | consume ps =>
      have current := h.foresees (currentForesees s)
      simp only [Scanner.consume]
      split
      · exact current.advance
      · exact current
  | readText => exact h.readText
  | skipTrivia required =>
      rcases skipTriviaSame required s with same | moved
      · rw [same]
        exact h
      · rw [moved] at valid ⊢
        exact ⟨valid, Nat.le_trans s.cursor.reachesSkip.length h.cursor, h.ahead⟩
  | setMode m =>
      unfold Scanner.setMode at *
      split
      · exact h
      · rename_i other
        rw [if_neg other] at valid
        exact ⟨valid, h.cursor, List.forall_mem_nil _⟩

theorem foretellsLeaves {as : List Ahead} (h : Foretells file m c as) : ∀ a ∈ as, a.after.rest.length ≤ c.rest.length := by
  induction as generalizing c with
  | nil => exact List.forall_mem_nil _
  | cons a as ih =>
      have shorter := Nat.le_of_lt (Cursor.nextAdvances h.1.1).shorter
      exact List.forall_mem_cons.mpr ⟨shorter, fun b inside => Nat.le_trans (ih h.2 b inside) shorter⟩

theorem Stands.leaves (h : s.Stands file m c) : s.Leaves c.rest.length := by
  have valid := h.valid
  obtain ⟨rfl, rfl, rfl, ahead, -⟩ := h
  exact ⟨valid, Nat.le_refl _, foretellsLeaves ahead⟩

theorem Pending.current (h : s.Pending) : ∃ t raw, s.current.1 = some t ∧ t.kind = .jsxText raw := by
  obtain ⟨⟨a, as, raw, ahead, kind, -, -⟩, -⟩ := h
  exact ⟨a.token, raw, by rw [currentAdvances, advanceCons ahead], kind⟩

theorem Pending.consume (h : s.Pending) (ps : List String) : s.consume ps = (none, s.current.2) := by
  obtain ⟨t, raw, current, kind⟩ := h.current
  have misfit : ps.any t.isPunctuator = false := by
    rw [List.any_eq_false]
    intro o _ fits
    rw [Token.isPunctuatorIff, kind] at fits
    cases fits
  simp [Scanner.consume, current, misfit]

end Scanner

namespace Grammar

variable {x : Setting} {p : Parser} {lower higher : Nat}

def past (left : Nat) (inner : Inner) : Inner := fun k p =>
  if p.scanner.cursor.rest.length < left then inner k p else .error .exhausted p

/-- `within`, where every rule is entered with fewer characters left than the rule around it was. -/
def stepping : (budget : Nat) → Construct → Rule Node
  | 0, _ => EStateM.throw .exhausted
  | budget + 1, k => fun p => construct (past p.scanner.cursor.rest.length (stepping budget)) k p

theorem withinAlongside {I : Scanner → Prop} (lasting : Lasting I) (ordered : lower ≤ higher) (k : Construct) :
    Alongside (beside lasting) lower (within lower k) (within higher k) := by
  induction lower generalizing higher k with
  | zero => exact fun _ _ _ => .alone rfl
  | succ lower ih =>
      cases higher with
      | zero => cases ordered
      | succ higher =>
          exact pairedConstruct (ih (Nat.le_of_succ_le_succ ordered)) (fun _ => besideAttends) (fun _ => besideAttends) k

theorem steppingAlongside (ordered : lower ≤ higher) (k : Construct) :
    Alongside (beside alwaysLasting) lower (stepping lower k) (within higher k) := by
  induction lower generalizing higher k with
  | zero => exact fun _ _ _ => .alone rfl
  | succ lower ih =>
      cases higher with
      | zero => cases ordered
      | succ higher =>
          intro p q related
          apply Alongside.run (pairedConstruct (fun k p' q' inside => ?_) (fun _ => besideAttends) (fun _ => besideAttends) k)
            related
          unfold past
          split
          · exact ih (Nat.le_of_succ_le_succ ordered) k inside
          · exact .alone rfl

theorem steppingAnswers (x : Setting) (budget : Nat) (k : Construct) :
    Answers x (Construct.phrase k) budget (stepping budget k) := by
  induction budget generalizing k with
  | zero => exact fun m d c p _ room => absurd room (Nat.not_lt_zero _)
  | succ budget ih =>
      intro m d c p stands room
      have inside : ∀ k, Answers x (Construct.phrase k) c.rest.length (past c.rest.length (stepping budget) k) := by
        intro k m' d' c' p' stands' fewer
        have answer := ih k m' d' c' p' stands' (Nat.lt_of_lt_of_le fewer (Nat.le_of_lt_succ room))
        unfold Meets past at *
        rwa [stands'.scanner.cursor, if_pos fewer]
      have answer := constructAnswers inside k m d c p stands (Nat.lt_succ_self _)
      unfold Meets stepping at *
      rwa [stands.scanner.cursor]

theorem steppingEnough (valid : p.scanner.Valid) (enough : p.scanner.cursor.rest.length < lower) (k : Construct) (q : Parser) :
    stepping lower k p ≠ .error .exhausted q := by
  intro ran
  cases valid with
  | inl stands =>
      have answer := steppingAnswers _ lower k _ _ _ p (standsSelf stands) enough
      unfold Meets at answer
      rw [ran] at answer
      exact answer
  | inr pending =>
      cases lower with
      | zero => cases enough
      | succ lower =>
          have idle := @silentConstruct p (fun _ _ => False) (past p.scanner.cursor.rest.length (stepping lower)) k
            (pendingSilent pending)
          unfold stepping at ran
          unfold Idle Meets at idle
          rw [ran] at idle
          exact idle

theorem steppingWithin (valid : p.scanner.Valid) (enough : p.scanner.cursor.rest.length < lower)
    (ordered : lower ≤ higher) (k : Construct) : stepping lower k p = within higher k p := by
  cases besideSame (steppingAlongside ordered k) trivial with
  | inl ran => exact absurd ran.choose_spec (steppingEnough valid enough k _)
  | inr same => exact same

section Rounds

variable {α β : Type} {n : Nat} {m : Mode} {d : Nat} {c c' : Cursor} {p' : Parser} {inner : Inner}

abbrev Bounded (n : Nat) (step : Parse α) : Prop := Paired (beside (Scanner.leavesLasting n)) 1 step

theorem boundedLeaves {step : Parse α} {a : α} (h : Bounded n step) (before : p.scanner.Leaves n)
    (ran : step p = .ok a p') : p'.scanner.Leaves n := by
  have run := h.run ⟨rfl, before⟩
  rw [ran] at run
  cases run with
  | same related => exact related.2

def Gained (p : Parser) : Option α → Parser → Prop
  | some _, p' => ∃ n, n < p.scanner.cursor.rest.length ∧ p'.scanner.Leaves n
  | none, p' => p'.scanner.Valid ∧ p'.scanner.cursor.rest.length ≤ p.scanner.cursor.rest.length

def Gains (rule : Rule α) : Prop := ∀ p, p.scanner.Valid → ∀ r p', rule p = .ok r p' → Gained p r p'

theorem unmovedGained (h : Unmoved p p') (valid : p.scanner.Valid) : Gained p (none : Option α) p' :=
  ⟨valid.foresees h.scanner, Nat.le_of_eq (congrArg (·.rest.length) h.scanner.same.1)⟩

theorem restsGained {a : α} (h : Rests x m d c' p') (advances : p.scanner.cursor.Advances c') :
    Gained p (some a) p' := ⟨c'.rest.length, advances.shorter, h.scanner.toStands.leaves⟩

theorem meetsYields {step : Parse α} {a : α} {good : α → Parser → Prop} {bad : ParseError → Parser → Prop}
    (h : Meets step p good bad) (ran : step p = .ok a p') : good a p' := by
  unfold Meets at h
  rwa [ran] at h

theorem gainsNone : Gains (pure none : Parse (Option α)) := by
  intro p valid r p' ran
  cases ran
  exact ⟨valid, Nat.le_refl _⟩

theorem gainedEither {rule : Parse (Option α)} {next : Option α → Parse (Option β)} {q : Parser} {r : Option β}
    (ran : (rule >>= next) q = .ok r p') (first : ∀ a q', rule q = .ok a q' → Gained p a q')
    (absent : Gains (next none)) (present : ∀ a n, Bounded n (next (some a))) : Gained p r p' := by
  change EStateM.bind rule next q = _ at ran
  unfold EStateM.bind at ran
  cases begun : rule q with
  | error =>
      rw [begun] at ran
      cases ran
  | ok a q' =>
      have gained := first a q' begun
      rw [begun] at ran
      cases a with
      | none =>
          have more := absent q' gained.1 r p' ran
          cases r with
          | none => exact ⟨more.1, Nat.le_trans more.2 gained.2⟩
          | some b =>
              obtain ⟨n, shorter, leaves⟩ := more
              exact ⟨n, Nat.lt_of_lt_of_le shorter gained.2, leaves⟩
      | some a =>
          obtain ⟨n, shorter, leaves⟩ := gained
          have later := boundedLeaves (present a n) leaves ran
          cases r with
          | none => exact ⟨later.valid, Nat.le_of_lt (Nat.lt_of_le_of_lt later.cursor shorter)⟩
          | some b => exact ⟨n, shorter, later⟩

theorem Gains.either {rule : Parse (Option α)} {next : Option α → Parse (Option β)} (first : Gains rule)
    (absent : Gains (next none)) (present : ∀ a n, Bounded n (next (some a))) :
    Gains (rule >>= next : Parse (Option β)) :=
  fun p valid _ _ ran => gainedEither ran (first p valid) absent present

theorem gainsConsume (ps : List String) : Gains (consume ps) := by
  intro p valid r p' ran
  cases valid with
  | inl stands =>
      have answer : Meets (consume ps) p _ fun _ _ => False := meetsConsume (standsSelf stands) ps
      have outcome := meetsYields answer ran
      cases r with
      | none => exact unmovedGained outcome.2 stands.valid
      | some t =>
          obtain ⟨o, -, c', next, -, -, rests⟩ := outcome
          exact restsGained rests (Cursor.nextAdvances next)
  | inr pending =>
      simp only [Parser.consume, scan, pending.consume ps] at ran
      cases ran
      exact unmovedGained ⟨rfl, rfl, rfl, Scanner.currentForesees _⟩ (.inr pending)

theorem gainsTokenWhere {test : Token.Kind → Bool} (text : ∀ raw, test (.jsxText raw) = false) :
    Gains (tokenWhere test) := by
  intro p valid r p' ran
  cases valid with
  | inl stands =>
      have answer : Meets (tokenWhere test) p _ fun _ _ => False := meetsTokenWhere (standsSelf stands) test
      have outcome := meetsYields answer ran
      cases r with
      | none => exact unmovedGained outcome.2 stands.valid
      | some t =>
          obtain ⟨c', next, -, -, rests⟩ := outcome
          exact restsGained rests (Cursor.nextAdvances next)
  | inr pending =>
      obtain ⟨t, raw, current, kind⟩ := pending.current
      simp only [tokenWhere, bind, EStateM.bind, Parser.current, scan, current, Option.any_some, kind, text] at ran
      cases ran
      exact unmovedGained ⟨rfl, rfl, rfl, Scanner.currentForesees _⟩ (.inr pending)

theorem gainsTextChild : Gains textChild := by
  intro p valid r p' ran
  have taken := valid.readText.advance
  unfold textChild at ran
  change EStateM.bind readText _ p = _ at ran
  simp only [EStateM.bind, readText, scan, Scanner.readText] at ran taken
  cases found : Lexeme.jsxText? p.scanner.cursor.rest with
  | none =>
      rw [found] at ran
      cases ran
      exact ⟨valid, Nat.le_refl _⟩
  | some l =>
      have cuts := Lexeme.jsxTextCuts found
      have shorter : l.rest.length < p.scanner.cursor.rest.length := by
        rw [cuts.splits, List.length_append]
        exact Nat.lt_add_of_pos_left (List.length_pos_of_ne_nil cuts.nonempty)
      rw [found] at ran taken
      dsimp only at ran
      refine gainedEither ran (fun t q' advanced => ?_) gainsNone fun _ _ => pairedSomeNode _ _ _ _
      rw [Scanner.advanceCons rfl] at taken
      simp only [Parser.advance, scan] at advanced
      rw [Scanner.advanceCons rfl] at advanced
      cases advanced
      exact ⟨l.rest.length, shorter, taken, Nat.le_refl _, List.forall_mem_nil _⟩

theorem gainsSeparatedItem {item : Rule α} (h : ∀ n, Bounded n item) (separators : List String) :
    Gains (separatedItem item separators) :=
  (gainsConsume separators).either gainsNone fun _ n => ((h n).required besideAttends besideAttends).bind fun _ => pairedPure _

theorem gainsMemberStep (object : Node) : Gains (memberStep object) :=
  (gainsConsume ["."]).either gainsNone fun _ _ => pairedOwnName.bind fun _ => pairedSomeNode _ _ _ _

theorem gainsJsxIdentifier : Gains jsxIdentifier :=
  (gainsTokenWhere fun _ => rfl).either gainsNone fun _ _ => pairedSomeNode _ _ _ _

theorem gainsName (chained : Bool) : Gains (name chained) := by
  refine gainsJsxIdentifier.either gainsNone fun first n => ?_
  apply (pairedConsume [":"]).either
  · dsimp only
    split
    · exact (pairedGrow pairedMemberStep first).bind fun _ => pairedPure _
    · exact pairedPure _
  · exact fun _ => pairedOwnName.bind fun _ => pairedSomeNode _ _ _ _

variable (h : ∀ c n, Bounded n (inner c))

include h

theorem gainsSuffix (object : Node) : Gains (suffix inner object) := by
  refine (gainsConsume ["."]).either ?_ fun _ n => ?_
  · refine (gainsConsume ["["]).either ?_ fun _ n => ?_
    · refine (gainsConsume ["("]).either gainsNone fun _ n => ?_
      exact (pairedCall (h · n) (fun _ => besideAttends) (fun _ => besideAttends) object).bind fun _ => pairedPure _
    · have property := pairedComputedProperty (h · n) (fun _ => besideAttends) (fun _ => besideAttends)
      exact property.deeper.bind fun _ => (pairedNode _ _ _ _).bind fun _ => pairedPure _
  · exact pairedOwnIdentifier.bind fun _ => (pairedNode _ _ _ _).bind fun _ => pairedPure _

theorem gainsAttribute : Gains (attribute? inner) := by
  refine Gains.either ?_ ?_ fun _ _ => pairedPure _
  · refine (gainsConsume ["\x7b"]).either gainsNone fun brace n => ?_
    apply (pairedOpen _ _).bind
    intro node
    apply Alongside.bind
    · apply Alongside.withMode
      have required := pairedRequired (h · n) (fun _ => besideAttends) (fun _ => besideAttends)
      exact (pairedExpect _).bind fun _ => required.bind fun _ => (pairedExpect _).bind fun _ => pairedPure _
    · exact fun _ => (pairedComplete _ _ _).bind fun _ => pairedPure _
  · refine (gainsName false).either gainsNone fun own n => ?_
    apply (pairedOpen _ _).bind
    intro node
    apply (pairedConsume ["="]).either
    · exact (pairedComplete _ _ _).bind fun _ => pairedPure _
    · have value := pairedAttributeValue (h · n) (fun _ => besideAttends) (fun _ => besideAttends)
      exact fun _ => value.bind fun _ => (pairedComplete _ _ _).bind fun _ => pairedPure _

theorem gainsChild (matches' : ∀ c, Gains (inner c)) : Gains (child inner) := by
  refine gainsTextChild.either (Gains.either ?_ ?_ fun _ _ => pairedPure _) fun _ _ => pairedPure _
  · exact (matches' .fragment).either (matches' .element) fun _ _ => pairedPure _
  · refine (gainsConsume ["\x7b"]).either gainsNone fun brace n => ?_
    have contents := pairedBracedContents (h · n) (fun _ => besideAttends) (fun _ => besideAttends) brace
    exact (contents.withMode .script).bind fun _ => pairedPure _

omit h

theorem boundedWithin (budget n : Nat) (c : Construct) : Bounded n (within budget c) :=
  pairedWithin (w := beside (Scanner.leavesLasting n)) budget c

theorem gainsWithin (budget : Nat) (k : Construct) : Gains (within budget k) := by
  intro p valid r p' ran
  have enough := Nat.lt_succ_self p.scanner.cursor.rest.length
  have ran : rule k p = .ok r p' := by
    have own : rule k p = within (max budget (p.scanner.cursor.rest.length + 1)) k p := by
      rw [← steppingWithin valid enough (Nat.le_max_right _ _), steppingWithin valid enough (Nat.le_refl _)]
      rfl
    rcases besideSame (withinAlongside alwaysLasting (Nat.le_max_left budget (p.scanner.cursor.rest.length + 1)) k)
      trivial with ⟨q, out⟩ | same
    · rw [ran] at out
      cases out
    · rw [own, ← same, ran]
  cases valid with
  | inl stands =>
      have outcome := meetsYields (ruleAnswers k (standsSelf stands)) ran
      cases r with
      | none => exact unmovedGained outcome stands.valid
      | some n =>
          obtain ⟨c', reads, rests⟩ := outcome
          obtain ⟨-, -, -, -, advances⟩ := phraseBegins reads
          exact restsGained rests advances
  | inr pending =>
      obtain ⟨p₁, ran', same⟩ := silentRule k (pendingSilent pending)
      rw [ran] at ran'
      cases ran'
      exact unmovedGained same (.inr pending)

inductive Round (inner : Inner) : (α : Type) → Parse (Option α) → Prop where
  | operand {level : Level} {tighter : List Level} (some : level :: tighter <:+ levels) : Round inner _
      (separatedItem (operandWithEnd (tighter.foldr (fun level operand => leftFold operand level.operators level.join)
        (unary inner))) level.operators)
  | argument : Round inner _ (separatedItem (inner .expression) [","])
  | memberOrCall (object : Node) : Round inner _ (suffix inner object)
  | nameMember (object : Node) : Round inner _ (memberStep object)
  | attribute? : Round inner _ (attribute? inner)
  | child : Round inner _ (child inner)

theorem gainsRound {budget : Nat} {round : Parse (Option α)} (h : Round (within budget) α round) : Gains round := by
  cases h with
  | operand =>
      apply gainsSeparatedItem
      intro n
      have ladder := pairedLadder (boundedWithin budget n) (fun _ => besideAttends) (fun _ => besideAttends)
      exact (ladder _).either (pairedPure _) fun _ => pairedLastEnd.bind fun _ => pairedPure _
  | argument => exact gainsSeparatedItem (boundedWithin budget · .expression) _
  | memberOrCall object => exact gainsSuffix (fun c n => boundedWithin budget n c) object
  | nameMember object => exact gainsMemberStep object
  | attribute? => exact gainsAttribute fun c n => boundedWithin budget n c
  | child => exact gainsChild (fun c n => boundedWithin budget n c) (gainsWithin budget)

end Rounds

end Grammar

namespace Parser

open Grammar

variable {source : String} {config : Config} {file : Option String} {p : Parser}

theorem Reachable.leaves (h : Reachable source config file p) : p.scanner.Leaves source.toList.length := by
  apply h.lasts (Scanner.leavesLasting _)
  · exact ⟨Scanner.startValid source file, Nat.le_refl _, List.forall_mem_nil _⟩
  · intro s s' _ marked
    exact ⟨marked.valid.rewind s, marked.cursor, List.forall_mem_nil _⟩

/-- Parsing ends with a tree or an error. In whatever state a rule is called, it is entered again only with fewer
characters left, calls as many as the source has characters are enough, and every round of a loop that matches leaves
fewer characters. -/
theorem parsingProgresses (source : String) (config : Config) (file : Option String) :
    (∃ outcome : Except ParseError Node, parse source config file = outcome.mapError Halt.error) ∧
    ∀ p, Reachable source config file p →
      (∀ k q, rule k p ≠ .error .exhausted q) ∧
      (∀ k budget, source.toList.length < budget → stepping budget k p = rule k p ∧ within budget k p = rule k p) ∧
      ∀ budget α (round : Parse (Option α)), Round (within budget) α round → ∀ a p', round p = .ok (some a) p' →
        p'.scanner.cursor.rest.length < p.scanner.cursor.rest.length := by
  refine ⟨parseOutcome source config file, fun p reachable => ?_⟩
  have valid := reachable.valid
  have own (k) := steppingWithin valid (Nat.lt_succ_self _) (Nat.le_refl _) k
  refine ⟨fun k q ran => ?_, fun k budget enough => ?_, fun budget α round known a p' ran => ?_⟩
  · exact steppingEnough valid (Nat.lt_succ_self _) k q ((own k).trans ran)
  · have more : p.scanner.cursor.rest.length < budget := Nat.lt_of_le_of_lt reachable.leaves.cursor enough
    have same : rule k p = within budget k p := (own k).symm.trans (steppingWithin valid (Nat.lt_succ_self _) more k)
    exact ⟨(steppingWithin valid more (Nat.le_refl _) k).trans same.symm, same.symm⟩
  · obtain ⟨n, shorter, leaves⟩ := gainsRound known p valid (some a) p' ran
    exact Nat.lt_of_le_of_lt leaves.cursor shorter

theorem parsingProgressesCall : ∃ p a p', Reachable "(a)" ⟨1, true⟩ none p ∧
    within 4 .expression p = rule .expression p ∧
    suffix (within 4) ⟨.identifier "f", .origin, .origin, none⟩ p = .ok (some a) p' ∧
    p'.scanner.cursor.rest.length < p.scanner.cursor.rest.length := by
  have begun : Reachable "(a)" ⟨1, true⟩ none (.start "(a)" ⟨1, true⟩ none) := .start
  obtain ⟨-, enough, rounds⟩ := (parsingProgresses "(a)" ⟨1, true⟩ none).2 _ begun
  have called : (EStateM.run' (suffix (within 4) ⟨.identifier "f", .origin, .origin, none⟩)
    (.start "(a)" ⟨1, true⟩ none)).any Option.isSome = true := by decide +kernel
  unfold EStateM.run' at called
  split at called
  · rename_i r p' ran
    obtain ⟨a, rfl⟩ := Option.isSome_iff_exists.mp called
    exact ⟨_, a, p', begun, (enough .expression 4 (by decide)).2, ran,
      rounds 4 _ _ (.memberOrCall _) a p' ran⟩
  · cases called

end Parser

end JsxTree
