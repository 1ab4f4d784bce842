import JsxTree.Proofs.Alternation
import JsxTree.Proofs.Asserting

/-! Operands folded from the left, whatever the rule for an operand. The ends are collected along with the operands and used
only later, when the scanner has moved on; still each fold ends where its own last operand did. -/
namespace JsxTree

def Parser.Join.parts {α : Type} : Join → Form α → Option (String × α × α)
  | .binary, .binary operator left right | .logical, .logical operator left right => some (operator, left, right)
  | _, _ => none

structure Joined where
  operator : String
  right : Node
  span : Span

/-- What lies innermost on the left below so many nodes of the kind, and from there outwards what each of them adds. -/
def Node.leftSpine (join : Parser.Join) : Nat → Node → Option (Node × List Joined)
  | 0, n => some (n, [])
  | k + 1, ⟨form, span⟩ => do
      let (operator, left, right) ← join.parts form
      let (first, joined) ← leftSpine join k left
      return (first, joined ++ [⟨operator, right, span⟩])

namespace Parser

section Spine

variable {join : Join} {k : Nat} {first left right tree tree' : Node} {operator : String} {span : Span}
  {joined : List Joined} {spine : Node × List Joined}

theorem partsForm (join : Join) {α : Type} (operator : String) (left right : α) :
    join.parts (join.form operator left right) = some (operator, left, right) := by
  cases join <;> rfl

theorem formOfParts {α : Type} {form : Form α} {left right : α} (h : join.parts form = some (operator, left, right)) :
    form = join.form operator left right := by
  cases join <;> cases form <;> cases h <;> rfl

theorem spineJoin (operator : String) (right : Node) (span : Span) (below : left.leftSpine join k = some (first, joined)) :
    (⟨join.form operator left right, span⟩ : Node).leftSpine join (k + 1) =
      some (first, joined ++ [⟨operator, right, span⟩]) := by
  simp only [Node.leftSpine, partsForm, below, Option.bind_eq_bind, Option.bind_some, Option.pure_def]

theorem spineParts (h : tree.leftSpine join (k + 1) = some spine) : ∃ operator left right span first joined,
    tree = ⟨join.form operator left right, span⟩ ∧ left.leftSpine join k = some (first, joined) ∧
    spine = (first, joined ++ [⟨operator, right, span⟩]) := by
  obtain ⟨form, span⟩ := tree
  simp only [Node.leftSpine, Option.bind_eq_bind, Option.bind_eq_some_iff, Option.pure_def, Option.some.injEq] at h
  obtain ⟨⟨operator, left, right⟩, parts, ⟨first, joined⟩, below, rfl⟩ := h
  exact ⟨operator, left, right, span, first, joined, by rw [formOfParts parts], below, rfl⟩

theorem spineUnique (h : tree.leftSpine join k = some spine) (h' : tree'.leftSpine join k = some spine) : tree = tree' := by
  induction k generalizing tree tree' spine with
  | zero =>
      cases h
      cases h'
      rfl
  | succ k ih =>
      obtain ⟨operator, left, right, span, first, joined, rfl, below, rfl⟩ := spineParts h
      obtain ⟨operator', left', right', span', first', joined', rfl, below', same⟩ := spineParts h'
      obtain ⟨rfl, more⟩ := Prod.mk.inj same
      obtain ⟨rfl, last⟩ := List.append_inj' more rfl
      cases last
      rw [ih below below']

end Spine

variable {source : String} {config : Config} {file : Option String} {operand : Rule Node} {operators : List String}
  {join : Join} {p q r s : Parser} {first left : Node} {links : List (Link Node)} {h : Halt}

def Link.ended (l : Link Node) : Link (Node × Position) := ⟨l.separator, (l.item, l.after.scanner.lastEnd), l.after⟩

def Link.joined (file : Option String) (first : Node) (l : Link Node) : Joined :=
  ⟨l.separator.text, l.item, first.span.start, l.after.scanner.lastEnd, file⟩

inductive Folds (file : Option String) (operand : Rule Node) (operators : List String) (join : Join) (p : Parser) :
    EStateM.Result Halt Parser (Option Node) → Prop where
  | empty {q : Parser} (empty : separatedList operand operators p = .ok [] q) : Folds file operand operators join p (.ok none q)
  | failed {h : Halt} {q : Parser} (failed : separatedList operand operators p = .error h q) :
      Folds file operand operators join p (.error h q)
  | folded {tree first : Node} {links : List (Link Node)} {r : Parser} (listed : Lists operand operators p first links r)
      (absent : separator? operators r = none)
      (spine : tree.leftSpine join links.length = some (first, links.map (Link.joined file first))) :
      Folds file operand operators join p (.ok (some tree) r.looked)

section Ends

theorem endedMatch {n : Node} (ran : operand p = .ok (some n) q) :
    operandWithEnd operand p = .ok (some (n, q.scanner.lastEnd)) q := by
  simp only [operandWithEnd, lastEnd, bind, EStateM.bind, ran, pure, EStateM.pure]

theorem endedNone (ran : operand p = .ok none q) : operandWithEnd operand p = .ok none q := by
  simp only [operandWithEnd, bind, EStateM.bind, ran, pure, EStateM.pure]

theorem endedError (ran : operand p = .error h q) : operandWithEnd operand p = .error h q := by
  simp only [operandWithEnd, bind, EStateM.bind, ran]

theorem endedRan {found : Option (Node × Position)} (ran : operandWithEnd operand p = .ok found q) :
    operand p = .ok (found.map Prod.fst) q := by
  cases own : operand p with
  | error h q =>
      rw [endedError own] at ran
      cases ran
  | ok n q =>
      cases n with
      | none =>
          rw [endedNone own] at ran
          cases ran
          rfl
      | some n =>
          rw [endedMatch own] at ran
          cases ran
          rfl

theorem Forward.ended (forward : Forward source config file operand) :
    Forward source config file (operandWithEnd operand) where
  reaches before ran := forward.reaches before (endedRan ran)
  onward before ran := forward.onward before (endedRan ran)
  still before ran := forward.still before (endedRan ran)

theorem Alternates.ended (path : Alternates operand operators p links r) :
    Alternates (operandWithEnd operand) operators p (links.map Link.ended) r := by
  induction path with
  | stop => exact .stop _
  | more found item _ ih => exact .more found (endedMatch item) ih

theorem Lists.ended (listed : Lists operand operators p first links r) :
    ∃ stop, Lists (operandWithEnd operand) operators p (first, stop) (links.map Link.ended) r := by
  obtain ⟨q, ran, path⟩ := listed
  exact ⟨q.scanner.lastEnd, q, endedMatch ran, path.ended⟩

theorem Breaks.ended (breaks : Breaks operand operators p h q) : Breaks (operandWithEnd operand) operators p h q := by
  cases breaks with
  | failed found item => exact .failed found (endedError item)
  | missing found item error => exact .missing found (endedNone item) error

end Ends

section Joins

theorem joinStep (released : s.asserting = false) (join : Join) (left : Node) (l : Link Node) :
    joinOperand join left l.ended.separated s =
      .ok ⟨join.form l.separator.text left l.item, left.span.start, l.after.scanner.lastEnd, s.scanner.file⟩ s :=
  @completePassed s ⟨join.kind, left.span.start⟩ _ (some l.after.scanner.lastEnd) (assertReleased released _)

theorem joinsSpine {k : Nat} {joined : List Joined} (spine : left.leftSpine join k = some (first, joined))
    (start : left.span.start = first.span.start) (released : s.asserting = false) : ∃ tree,
    (links.map fun l => l.ended.separated).foldlM (joinOperand join) left s = .ok tree s ∧
    tree.leftSpine join (k + links.length) = some (first, joined ++ links.map (Link.joined s.scanner.file first)) := by
  induction links generalizing left k joined with
  | nil => exact ⟨left, rfl, by simpa using spine⟩
  | cons l links ih =>
      have step := joinStep released join left l
      rw [start] at step
      have next := spineJoin l.separator.text l.item ⟨first.span.start, l.after.scanner.lastEnd, s.scanner.file⟩ spine
      obtain ⟨tree, folds, more⟩ := ih next rfl
      refine ⟨tree, ?_, ?_⟩
      · simp only [List.map_cons, List.foldlM_cons, bind, EStateM.bind, step, folds]
      · rw [List.length_cons, Nat.add_comm links.length, ← Nat.add_assoc, more, List.map_cons, List.append_assoc]
        rfl

end Joins

section Folds

theorem Lists.folds (listed : Lists operand operators p first links r) (forward : Forward source config file operand)
    (before : Reachable source config file p) (absent : separator? operators r = none) (join : Join) :
    leftFold operand operators join p =
      (do return some (← (links.map fun l : Link Node => l.ended.separated).foldlM (joinOperand join) first)) r.looked := by
  obtain ⟨stop, ended⟩ := listed.ended
  have list := (Unfolds.stops ended absent).list forward.ended before
  rw [List.map_map] at list
  simp only [leftFold, bind, EStateM.bind, list]
  rfl

theorem foldEmpty (empty : separatedList operand operators p = .ok [] q) (forward : Forward source config file operand)
    (before : Reachable source config file p) (join : Join) : leftFold operand operators join p = .ok none q := by
  have unfolds := listUnfolds forward operators before
  rw [empty] at unfolds
  cases unfolds with
  | empty ran =>
      have list : separatedList (operandWithEnd operand) operators p = .ok [] q :=
        (Unfolds.empty (endedNone ran)).list forward.ended before
      simp only [leftFold, bind, EStateM.bind, list]
      rfl

theorem foldError (failed : separatedList operand operators p = .error h q) (forward : Forward source config file operand)
    (before : Reachable source config file p) (join : Join) : leftFold operand operators join p = .error h q := by
  have unfolds := listUnfolds forward operators before
  rw [failed] at unfolds
  have list : separatedList (operandWithEnd operand) operators p = .error h q := by
    cases unfolds with
    | failed ran => exact (Unfolds.failed (endedError ran)).list forward.ended before
    | breaks listed breaks =>
        obtain ⟨stop, ended⟩ := listed.ended
        exact (Unfolds.breaks ended breaks.ended).list forward.ended before
  simp only [leftFold, bind, EStateM.bind, list]

theorem Lists.spine (listed : Lists operand operators p first links r) (forward : Forward source config file operand)
    (before : Reachable source config file p) (absent : separator? operators r = none) (join : Join) : ∃ tree, leftFold operand operators join p = .ok (some tree) r.looked ∧
      tree.leftSpine join links.length = some (first, links.map (Link.joined file first)) := by
  have behind : Reachable source config file r.looked := (listed.reaches forward before).step (.scanner (.current _))
  have single : first.leftSpine join 0 = some (first, []) := rfl
  obtain ⟨tree, folds, spine⟩ := joinsSpine single rfl behind.released
  rw [behind.sited.path, List.nil_append, Nat.zero_add] at spine
  refine ⟨tree, ?_, spine⟩
  rw [listed.folds forward before absent]
  simp only [bind, EStateM.bind, folds, pure, EStateM.pure]

theorem leftFoldFolds (forward : Forward source config file operand) (operators : List String) (join : Join)
    (before : Reachable source config file p) :
    Folds file operand operators join p (leftFold operand operators join p) := by
  have unfolds := listUnfolds forward operators before
  generalize list : separatedList operand operators p = result at unfolds
  cases unfolds with
  | empty => exact foldEmpty list forward before join ▸ .empty list
  | failed | breaks => exact foldError list forward before join ▸ .failed list
  | stops listed absent =>
      obtain ⟨tree, ran, spine⟩ := listed.spine forward before absent join
      exact ran ▸ .folded listed absent spine

end Folds

/-- The outcomes of a fold. There is none where the list of the operands is empty, one operand is left as it is, and of more
the left spine holds them in order, with the texts of the operators between them; so many operands span from the start of the
first to where the scanner stood right after the last of them. Errors are those of the list. -/
theorem leftFoldSpine (forward : Forward source config file operand) (operators : List String) (join : Join)
    (before : Reachable source config file p) :
    (∀ q, leftFold operand operators join p = .ok none q ↔ separatedList operand operators p = .ok [] q) ∧
    (∀ first q, separatedList operand operators p = .ok [⟨none, first⟩] q →
      leftFold operand operators join p = .ok (some first) q) ∧
    (∀ tree q, leftFold operand operators join p = .ok (some tree) q ↔ ∃ first links r,
      Lists operand operators p first links r ∧ separator? operators r = none ∧ q = r.looked ∧
      separatedList operand operators p = .ok (⟨none, first⟩ :: links.map Link.separated) q ∧
      tree.leftSpine join links.length = some (first, links.map (Link.joined file first))) ∧
    ∀ h q, leftFold operand operators join p = .error h q ↔ separatedList operand operators p = .error h q := by
  have folds := leftFoldFolds forward operators join before
  -- An outcome that is told is the one there is, as the list decides what the fold makes of it.
  refine ⟨fun q => ⟨fun ran => ?_, fun empty => foldEmpty empty forward before join⟩, fun first q single => ?_,
    fun tree q => ⟨fun ran => ?_, fun told => ?_⟩, fun h q => ⟨fun ran => ?_, fun failed => foldError failed forward before join⟩⟩
  · rw [ran] at folds
    cases folds with
    | empty empty => exact empty
  · have unfolds := listUnfolds forward operators before
    rw [single] at unfolds
    generalize items : [(⟨none, first⟩ : Separated Node)] = list at unfolds
    cases unfolds with
    | empty => cases items
    | @stops first' links r listed absent =>
        obtain ⟨same, empty⟩ := List.cons.inj items
        obtain rfl : links = [] := List.map_eq_nil_iff.mp empty.symm
        obtain ⟨tree, ran, spine⟩ := listed.spine forward before absent join
        cases same
        cases spine
        exact ran
  · rw [ran] at folds
    cases folds with
    | @folded tree first links r listed absent spine =>
        exact ⟨first, links, r, listed, absent, rfl, (Unfolds.stops listed absent).list forward before, spine⟩
  · obtain ⟨first, links, r, listed, absent, rfl, -, spine⟩ := told
    obtain ⟨tree', ran, spine'⟩ := listed.spine forward before absent join
    rw [ran, spineUnique spine spine']
  · rw [ran] at folds
    cases folds with
    | failed failed => exact failed

theorem leftFoldSpineGrouped : Forward "a - (b)" {} none (rule .unary) ∧
    Reachable "a - (b)" {} none (.start "a - (b)" {} none) ∧ ∃ (tree first : Node) (links : List (Link Node)) (r : Parser),
      Lists (rule .unary) ["-"] (.start "a - (b)" {} none) first links r ∧
      tree.leftSpine .binary links.length = some (first, links.map (Link.joined none first)) ∧
      tree.form.kind = .binary ∧ tree.span.stop.offset = 7 := by
  have forward : Forward "a - (b)" {} none (rule .unary) := ruleForward .unary
  have ran : ((leftFold (rule .unary) ["-"] .binary).run' (.start "a - (b)" {} none)).map
      (Option.map fun tree => (tree.form.kind, tree.span.stop.offset)) = some (some (.binary, 7)) := by decide +kernel
  unfold EStateM.run' at ran
  split at ran
  · rename_i found q folded
    obtain ⟨tree, rfl, same⟩ := Option.map_eq_some_iff.mp (Option.some.inj ran)
    obtain ⟨first, links, r, listed, -, -, -, spine⟩ :=
      ((leftFoldSpine forward ["-"] .binary .start).2.2.1 tree q).mp folded
    exact ⟨forward, .start, tree, first, links, r, listed, spine, congrArg Prod.fst same, congrArg Prod.snd same⟩
  · cases ran

end Parser

end JsxTree
