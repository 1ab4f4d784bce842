import JsxTree.Proofs.Expressions
import JsxTree.Proofs.Faithful
import JsxTree.Proofs.Precedence

/-! How high trees grow. What recursion nests, the limit bounds; what a loop over operators, suffixes or dots stacks up to the left
is as high as the loop goes round. Between two steps inwards a path only goes to the left, so both together bound it. -/
namespace JsxTree

namespace Form

variable {α β : Type}

def before? : Form α → Option α
  | binary _ left _ | logical _ left _ => some left
  | member object _ _ | jsxMember object _ => some object
  | call callee _ => some callee
  | _ => none

def inside : Form α → List α
  | binary _ _ right | logical _ _ right => [right]
  | member _ property _ | jsxMember _ property => [property]
  | call _ arguments => arguments
  | form => form.children

theorem beforeInside (form : Form α) : form.children = form.before?.toList ++ form.inside := by
  cases form with
  | call => simp [children, slots, Slot.nodes, before?, inside]
  | _ => rfl

theorem beforeMap (f : α → β) (form : Form α) : (form.map f).before? = form.before?.map f := by
  cases form <;> rfl

theorem insideMap (f : α → β) (form : Form α) : (form.map f).inside = form.inside.map f := by
  cases form with
  | binary | logical | member | jsxMember | call => rfl
  | _ => exact childrenMap f _

end Form

namespace Node

def height (n : Node) : Nat := n.fold fun form _ => deepest (form.children.map (· + 1))

/-- The rounds in a row that a node was put together in. -/
def rounds (n : Node) : Nat := n.fold fun form _ => (form.before?.map (· + 1)).getD 0

def inward (n : Node) : Nat := n.fold fun form _ => max (form.before?.getD 0) (deepest (form.inside.map (· + 1)))

end Node

section Measures

variable {form : Form Node} {span : Span} {n left : Node} {k : Nat}

theorem deepestUp {ks : List Nat} : deepest (ks.map (· + 1)) ≤ k ↔ ∀ j ∈ ks, j < k := by
  induction ks with
  | nil => simp [deepest]
  | cons j ks ih =>
      have step : deepest ((j :: ks).map (· + 1)) = max (j + 1) (deepest (ks.map (· + 1))) := rfl
      rw [List.forall_mem_cons, ← ih, step]
      omega

theorem heightLe : n.height ≤ k ↔ ∀ c ∈ n.form.children, c.height < k := by
  rw [Node.height, Node.foldEq, Form.childrenMap, deepestUp, List.forall_mem_map]
  rfl

theorem inwardLe : n.inward ≤ k ↔ (∀ c ∈ n.form.before?, c.inward ≤ k) ∧ ∀ c ∈ n.form.inside, c.inward < k := by
  rw [Node.inward, Node.foldEq, Form.insideMap, Form.beforeMap, max_le_iff, deepestUp, List.forall_mem_map]
  cases n.form.before? <;> simp [Node.inward]

theorem roundsBefore (stacked : left ∈ n.form.before?) : n.rounds = left.rounds + 1 := by
  rw [Node.rounds, Node.foldEq, Form.beforeMap, Option.mem_def.mp stacked]
  rfl

theorem heightRounds {most : Nat} (loops : n.Everywhere fun m => m.rounds ≤ most) :
    n.height ≤ n.rounds + n.inward * (most + 1) := by
  induction n using Node.inductOn with
  | step n ih =>
      obtain ⟨own, below⟩ := Node.everywhereIff.mp loops
      obtain ⟨leftwards, inwards⟩ := inwardLe.mp (Nat.le_refl n.inward)
      rw [heightLe]
      intro c child
      have height := ih c child (below c child)
      have turned := (Node.everywhereIff.mp (below c child)).1
      rw [Form.beforeInside, List.mem_append, Option.mem_toList] at child
      rcases child with stacked | nested
      · have same : c.inward * (most + 1) ≤ n.inward * (most + 1) := Nat.mul_le_mul_right _ (leftwards c stacked)
        have round := roundsBefore stacked
        omega
      · have fewer : (c.inward + 1) * (most + 1) ≤ n.inward * (most + 1) := Nat.mul_le_mul_right _ (inwards c nested)
        rw [Nat.succ_mul] at fewer
        omega

theorem inwardOver (loose : form.before? = none) (nested : ∀ c ∈ form.children, c.inward < k) :
    Node.inward ⟨form, span⟩ ≤ k := by
  rw [Form.beforeInside, loose] at nested
  refine inwardLe.mpr ⟨fun c stacked => ?_, nested⟩
  rw [loose] at stacked
  cases stacked

theorem inwardOnly (loose : form.before? = none) (only : form.children = [n]) (nested : n.inward < k) :
    Node.inward ⟨form, span⟩ ≤ k := by
  apply inwardOver loose
  rw [only]
  exact List.forall_mem_singleton.mpr nested

theorem inwardLeaf (loose : form.before? = none) (childless : form.children = []) : Node.inward ⟨form, span⟩ ≤ k := by
  apply inwardOver loose
  rw [childless]
  exact List.forall_mem_nil _

theorem inwardBeside {right : Node} (stacked : form.before? = some left) (only : form.inside = [right])
    (before : left.inward ≤ k) (nested : right.inward < k) : Node.inward ⟨form, span⟩ ≤ k := by
  refine inwardLe.mpr ⟨fun c same => ?_, ?_⟩
  · rw [stacked] at same
    cases same
    exact before
  · rw [only]
    exact List.forall_mem_singleton.mpr nested

end Measures

namespace Grammar

open JsxTree.Parser

variable {x : Setting} {file : Option String} {ph : Phrase} {m : Mode} {d k : Nat} {c c' : Cursor} {n object own : Node}

theorem ReadsMembers.inward (h : ReadsMembers file object c n c') (before : object.inward ≤ 1) : n.inward ≤ 1 := by
  induction h with
  | stop => exact before
  | step _ _ _ ih => exact ih (inwardBeside rfl rfl before (Nat.lt_succ_of_le (inwardLeaf rfl rfl)))

theorem ReadsName.inward {chained : Bool} (h : ReadsName file chained n c c') : n.inward ≤ 1 := by
  have leaf : ∀ {s : String} {span : Span}, Node.inward ⟨.jsxIdentifier s, span⟩ ≤ 0 := inwardLeaf rfl rfl
  cases h with
  | simple => exact inwardLeaf rfl rfl
  | chain _ _ members => exact members.inward (inwardLeaf rfl rfl)
  | namespaced =>
      apply inwardOver rfl
      exact List.forall_mem_cons.mpr ⟨Nat.lt_succ_of_le leaf, List.forall_mem_singleton.mpr (Nat.lt_succ_of_le leaf)⟩

theorem inwardOpening {as : List Node} {selfClosing : Bool} {span : Span} (name : own.inward < k)
    (attributes : ∀ a ∈ as, a.inward < k) : Node.inward ⟨.openingElement own (presentList as) selfClosing, span⟩ ≤ k := by
  apply inwardOver rfl
  rw [childrenOpening]
  exact List.forall_mem_cons.mpr ⟨name, attributes⟩

def Phrase.reach : Phrase → Nat
  | .primary _ | .suffixes _ _ | .chain _ | .unary _ | .fragment _ | .element _ => 1
  | .operands _ tighter _ _ => tighter.length + 2
  | .ladder levels _ => levels.length + 1
  | .moreArguments _ | .arguments _ => 7
  | .attributeValue _ | .child _ | .children _ => 8
  | .attribute _ | .attributes _ => 9

def Phrase.Inward (k : Nat) : Phrase → Prop
  | .suffixes left n | .operands _ _ left n => left.inward ≤ k → n.inward ≤ k
  | .moreArguments ns | .arguments ns | .attributes ns | .children ns => ∀ n ∈ ns, n.inward ≤ k
  | .primary n | .chain n | .unary n | .ladder _ n | .fragment n | .element n | .attributeValue n | .attribute n
  | .child n => n.inward ≤ k

theorem Reads.inward (h : Reads x ph m d c c') : ph.Inward (ph.reach + 10 * (x.config.maxDepth - d)) := by
  have beside : ∀ {n : Node} {d : Nat} (j k : Nat), n.inward ≤ j + 10 * (x.config.maxDepth - d) → j < k →
      n.inward < k + 10 * (x.config.maxDepth - d) := by omega
  have deeper : ∀ {n : Node} {d : Nat} (j k : Nat), d < x.config.maxDepth → n.inward ≤ j + 10 * (x.config.maxDepth - (d + 1)) →
      j < k + 10 → n.inward < k + 10 * (x.config.maxDepth - d) := by omega
  have leaf : ∀ {form : Form Node} {span : Span} {d k : Nat}, form.before? = none → form.children = [] → 0 < k →
      Node.inward ⟨form, span⟩ < k + 10 * (x.config.maxDepth - d) := fun loose childless positive =>
    Nat.lt_of_le_of_lt (inwardLeaf loose childless) (Nat.add_pos_left positive _)
  have named : ∀ {n : Node} {d : Nat} (k : Nat), n.inward ≤ 1 → 1 < k → n.inward < k + 10 * (x.config.maxDepth - d) := by
    omega
  -- Ten steps lead inwards: to the opening tag, an attribute, its container, the expression and down six levels of operators.
  induction h with
  | identifier | literal | stringValue | text => exact inwardLeaf rfl rfl
  | parenthesized _ room _ _ ih => exact Nat.le_of_lt (deeper 7 1 room ih (by decide))
  | fragmentPrimary _ _ ih | elementPrimary _ _ ih | plainUnary _ _ ih | bottom _ ih => exact ih
  | fragmentValue _ ih | elementValue _ ih | fragmentChild _ _ ih | elementChild _ _ ih =>
      exact Nat.le_of_lt (beside 1 8 ih (by decide))
  | noSuffix | noOperand => exact id
  | memberSuffix _ _ _ ih => exact fun before => ih (inwardBeside rfl rfl before (leaf rfl rfl Nat.one_pos))
  | computedSuffix _ room _ _ _ inside ih =>
      exact fun before => ih (inwardBeside rfl rfl before (deeper 7 1 room inside (by decide)))
  | callSuffix _ room _ _ _ inside ih =>
      intro before
      apply ih
      exact inwardLe.mpr ⟨fun c same => Option.mem_some.mp same ▸ before, fun n own => deeper 7 1 room (inside n own) (by decide)⟩
  | chain _ _ first more => exact more first
  | @level _ _ _ tighter _ _ _ _ _ _ _ first more =>
      exact more (Nat.le_of_lt (beside (tighter.length + 1) (tighter.length + 2) first (Nat.lt_succ_self _)))
  | unary _ _ room _ ih => exact inwardOnly rfl rfl (deeper 1 1 room ih (by decide))
  | @operand _ _ level tighter _ _ _ _ _ _ _ _ _ _ _ _ right more =>
      intro before
      apply more
      have nested := beside (tighter.length + 1) (tighter.length + 2) right (Nat.lt_succ_self _)
      cases level.join with
      | binary => exact inwardBeside rfl rfl before nested
      | logical => exact inwardBeside rfl rfl before nested
  | noMoreArguments | noArguments | noAttribute | noChild => exact List.forall_mem_nil _
  | moreArguments _ _ _ first more | arguments _ _ first more | attributes _ _ first more
  | children _ _ first more => exact List.forall_mem_cons.mpr ⟨first, more⟩
  | fragment _ _ room _ _ _ _ _ _ inside =>
      apply inwardOver rfl
      rw [childrenFragment, List.forall_mem_cons, List.forall_mem_append, List.forall_mem_singleton]
      exact ⟨leaf rfl rfl Nat.one_pos, fun n own => deeper 8 1 room (inside n own) (by decide), leaf rfl rfl Nat.one_pos⟩
  | selfClosing _ _ room _ name _ _ _ attributes =>
      exact inwardOnly rfl rfl (deeper 10 1 room (inwardOpening (named 10 name.inward (by decide))
        fun a own => beside 9 10 (attributes a own) (by decide)) (by decide))
  | element _ _ room _ name _ _ _ _ _ closingName _ _ attributes inside =>
      apply inwardOver rfl
      rw [childrenElement, List.forall_mem_cons, List.forall_mem_append, List.forall_mem_singleton]
      refine ⟨?_, fun n own => deeper 8 1 room (inside n own) (by decide), ?_⟩
      · exact deeper 10 1 room (inwardOpening (named 10 name.inward (by decide))
          fun a own => beside 9 10 (attributes a own) (by decide)) (by decide)
      · exact deeper 2 1 room (inwardOnly rfl rfl (named 2 closingName.inward (by decide))) (by decide)
  | containerValue _ _ _ ih | containerChild _ _ _ _ ih | spreadChild _ _ _ _ _ ih =>
      exact inwardOnly rfl rfl (beside 7 8 ih (by decide))
  | spreadAttribute _ _ _ _ ih => exact inwardOnly rfl rfl (beside 7 9 ih (by decide))
  | plainAttribute name => exact inwardOnly rfl rfl (named 9 name.inward (by decide))
  | valuedAttribute name _ _ ih =>
      apply inwardOver rfl
      exact List.forall_mem_cons.mpr
        ⟨named 9 name.inward (by decide), List.forall_mem_singleton.mpr (beside 8 9 ih (by decide))⟩
  | emptyChild => exact inwardOnly rfl rfl (leaf rfl rfl (Nat.succ_pos 7))

section Chains

variable {ps : List Piece} {first o : String} {rest : List (String × String)} {front : List Char}

theorem Grouped.tall (h : Grouped file ps n) (same : ∀ o, .operator o ∈ ps → rank? o = some k) :
    ps.length ≤ 2 * n.height + 1 := by
  induction h with
  | operand => exact Nat.le_add_left _ _
  | @operation o i l r ps qs known _ right _ tight left =>
      have shorter := left fun o inside => same o (List.mem_append_left _ inside)
      have above : l.height < Node.height ⟨(joinOf i).form o l r, l.span.start, r.span.stop, file⟩ :=
        heightLe.mp (Nat.le_refl _) l (by cases joinOf i <;> exact List.mem_cons_self)
      have single : qs.length = 1 := by
        cases right with
        | operand => rfl
        | @operation o' j _ _ _ _ known' =>
            have apart : i < j := tight j (by rw [rootRankJoin]; exact known')
            have one := same o (by simp)
            have other := same o' (by simp)
            rw [known] at one
            rw [known'] at other
            cases one
            cases other
            exact absurd apart (Nat.lt_irrefl _)
      simp only [List.length_append, List.length_cons, single]
      omega

theorem spacedLength : (spacedPieces file front first rest).length = 2 * rest.length + 1 := by
  induction rest generalizing front first with
  | nil => rfl
  | cons p rest ih =>
      simp only [spacedPieces, List.length_cons, ih]
      omega

theorem spacedOperators (inside : .operator o ∈ spacedPieces file front first rest) : ∃ s, (o, s) ∈ rest := by
  induction rest generalizing front first with
  | nil => simp [spacedPieces] at inside
  | cons p rest ih =>
      obtain ⟨o', s⟩ := p
      simp only [spacedPieces, List.mem_cons, reduceCtorEq, false_or, Piece.operator.injEq] at inside
      rcases inside with rfl | later
      · exact ⟨s, List.mem_cons_self⟩
      · obtain ⟨s', member⟩ := ih later
        exact ⟨s', List.mem_cons_of_mem _ member⟩

end Chains

end Grammar

/-- The limit bounds what nests, and with the rounds of loops also the height. -/
theorem heightBounded {source : String} {config : Config} {file : Option String} {tree : Node} {most : Nat}
    (accepted : parse source config file = .ok tree) (loops : ∀ n ∈ tree.preorder, n.rounds ≤ most) :
    tree.inward ≤ 10 * config.maxDepth + 7 ∧ tree.height < (10 * config.maxDepth + 8) * (most + 1) := by
  obtain ⟨c', reads, -⟩ := (Grammar.parseIff source config file tree).mp accepted
  have nested : tree.inward ≤ 7 + 10 * (config.maxDepth - 0) := reads.inward
  have inward : tree.inward ≤ 10 * config.maxDepth + 7 := by omega
  refine ⟨inward, ?_⟩
  have height := heightRounds loops
  have rounds := loops tree tree.preorderItself
  have once : (10 * config.maxDepth + 8) * (most + 1) = (10 * config.maxDepth + 7) * (most + 1) + (most + 1) :=
    Nat.succ_mul _ _
  calc tree.height
    _ ≤ most + tree.inward * (most + 1) := by omega
    _ ≤ most + (10 * config.maxDepth + 7) * (most + 1) := Nat.add_le_add_left (Nat.mul_le_mul_right _ inward) _
    _ < (10 * config.maxDepth + 8) * (most + 1) := by omega

theorem heightBoundedStacked : ∃ tree, parse "f(a.b.c)(-d) + e" ⟨2, true⟩ none = .ok tree ∧
    (∀ n ∈ tree.preorder, n.rounds ≤ 3) ∧ tree.inward ≤ 27 ∧ tree.height < 112 := by
  obtain ⟨tree, accepted, holds⟩ : ∃ tree, parse "f(a.b.c)(-d) + e" ⟨2, true⟩ none = .ok tree ∧
      (tree.preorder.all fun n => n.rounds ≤ 3) = true := Parser.acceptedOf (by decide +kernel)
  have loops : ∀ n ∈ tree.preorder, n.rounds ≤ 3 := fun n inside => of_decide_eq_true (List.all_eq_true.mp holds n inside)
  exact ⟨tree, accepted, loops, heightBounded accepted loops⟩

/-- The limit alone does not: a loop goes round as often as there are operators, whatever the limit. -/
theorem heightUnbounded : ¬∃ bound : Nat → Nat, ∀ (source : String) (config : Config) (file : Option String) (tree : Node),
    parse source config file = .ok tree → tree.height ≤ bound config.maxDepth := by
  rintro ⟨bound, bounds⟩
  have word : Grammar.Ordinary "a" := ⟨⟨'a', [], rfl, by decide, by simp⟩, by decide⟩
  let rest := List.replicate (bound 0 + 1) ("+", "a")
  have plus : ∀ p ∈ rest, p = ("+", "a") := fun p inside => List.eq_of_mem_replicate inside
  have words : ∀ p ∈ rest, (Grammar.rank? p.1).isSome ∧ Grammar.Ordinary p.2 := by
    intro p inside
    cases plus p inside
    exact ⟨rfl, word⟩
  obtain ⟨tree, parsed, grouped⟩ := Grammar.spacedParses word words ⟨0, true⟩ none
  have tall := grouped.tall (k := 5) fun o inside => by
    obtain ⟨s, member⟩ := Grammar.spacedOperators inside
    cases plus _ member
    rfl
  have low := bounds _ ⟨0, true⟩ none tree parsed
  rw [Grammar.spacedLength, List.length_replicate] at tall
  simp only at low
  omega

end JsxTree
