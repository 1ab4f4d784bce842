import JsxTree.Proofs.Layout
import JsxTree.Proofs.Spans

/-! Where the nodes of a tree were read. Every node with markup or an operator comes with the cursors it was read from
and to; the left one is where the node starts, unless what it begins with stands in parentheses. -/
namespace JsxTree

namespace Form

variable {α β : Type}

def leftmost : Form α → Option α
  | binary _ left _ | logical _ left _ => some left
  | member object _ _ => some object
  | call callee _ => some callee
  | _ => none

theorem leftmostMap (f : α → β) (form : Form α) : (form.map f).leftmost = form.leftmost.map f := by
  cases form <;> rfl

end Form

def Span.closed (source : String) (s : Span) : Bool :=
  (Text.dropBytes s.stop.offset source.toList).any fun rest => (Trivia.split rest).2.head? == some ')'

namespace Node

def piece? (source : String) (n : Node) : Option (List Char) :=
  Text.slice n.span.start.offset n.span.stop.offset source.toList

/-- No parenthesis closes behind what the node begins with, nor behind what that begins with in turn. -/
def upright (source : String) (n : Node) : Bool :=
  (n.fold fun form span => (span.closed source, form.leftmost.all fun left => !left.1 && left.2)).2

theorem uprightEq (source : String) (n : Node) : n.upright source =
    n.form.leftmost.all fun left => !left.span.closed source && left.upright source := by
  simp only [upright]
  rw [foldEq]
  simp only [Form.leftmostMap, Option.all_map]
  congr 1
  funext left
  rw [foldEq]

end Node

namespace Grammar

open Cursor JsxTree.Parser

inductive Chained (x : Setting) (d : Nat) (s : Cursor) : Node → Cursor → Prop where
  | first {n c} (primary : Reads x (.primary n) .script d s c) : Chained x d s n c
  | member {object name c c₁ c₂} (before : Chained x d s object c) (dot : c.Takes .script "." c₁)
      (own : c₁.next? .script = some (.identifier name, c₂)) :
      Chained x d s ⟨.member object ⟨.identifier name, c₁.spanTo c₂ x.file⟩ false, object.spanUpTo c₂ x.file⟩ c₂
  | computed {object property c c₁ c₂ c₃} (before : Chained x d s object c) (opens : c.Takes .script "[" c₁)
      (room : d < x.config.maxDepth) (inside : Reads x (.expression property) .script (d + 1) c₁ c₂)
      (closes : c₂.Takes .script "]" c₃) :
      Chained x d s ⟨.member object property true, object.spanUpTo c₃ x.file⟩ c₃
  | call {callee ns c c₁ c₂ c₃} (before : Chained x d s callee c) (opens : c.Takes .script "(" c₁)
      (room : d < x.config.maxDepth) (inside : Reads x (.arguments ns) .script (d + 1) c₁ c₂)
      (closes : c₂.Takes .script ")" c₃) : Chained x d s ⟨.call callee ns, callee.spanUpTo c₃ x.file⟩ c₃

inductive Folded (x : Setting) (level : Level) (tighter : List Level) (d : Nat) (s : Cursor) : Node → Cursor → Prop where
  | first {n c} (operand : Reads x (.ladder tighter n) .script d s c) : Folded x level tighter d s n c
  | more {left right o c c₁ c₂} (before : Folded x level tighter d s left c) (operator : c.Takes .script o c₁)
      (known : o ∈ level.operators) (operand : Reads x (.ladder tighter right) .script d c₁ c₂) :
      Folded x level tighter d s ⟨level.join.form o left right, left.spanUpTo c₂ x.file⟩ c₂

structure Edged (source : String) (c : Cursor) (n : Node) (c' : Cursor) : Prop where
  stop : n.span.stop = c'.position
  start : n.upright source = true → n.span.start = c.skip.position

/-- The reading of a node, by its kind. -/
def Occurs (x : Setting) (source : String) (n : Node) : Prop :=
  match n.form with
  | .fragment _ _ _ => ∃ m d c c', c.Within source ∧ x.config.jsx = true ∧ Reads x (.fragment n) m d c c'
  | .element _ _ _ => ∃ m d c c', c.Within source ∧ x.config.jsx = true ∧ Reads x (.element n) m d c c'
  | .unary _ _ _ => ∃ d c c', c.Within source ∧ Reads x (.unary n) .script d c c' ∧ Edged source c n c'
  | .binary _ _ _ | .logical _ _ _ => ∃ level tighter d c c', c.Within source ∧ level :: tighter <:+ levels ∧
      Folded x level tighter d c n c' ∧ Edged source c n c'
  | .member _ _ _ | .call _ _ => ∃ d c c', c.Within source ∧ Chained x d c n c' ∧ Edged source c n c'
  | _ => True

variable {x : Setting} {source : String} {file : Option String} {ph : Phrase} {m : Mode} {d : Nat}
  {s c c₁ c' : Cursor} {n object : Node} {form : Form Node} {span : Span}

def Situated (x : Setting) (source : String) (n : Node) : Prop := n.Everywhere (Occurs x source)

theorem situatedOver (own : Occurs x source ⟨form, span⟩) (below : ∀ c ∈ form.children, Situated x source c) :
    Situated x source ⟨form, span⟩ := Node.everywhereIff.mpr ⟨own, below⟩

theorem situatedLeaf (own : Occurs x source ⟨form, span⟩) (childless : form.children = []) :
    Situated x source ⟨form, span⟩ := by
  apply situatedOver own
  rw [childless]
  exact List.forall_mem_nil _

theorem situatedOnly (own : Occurs x source ⟨form, span⟩) (only : form.children = [n]) (below : Situated x source n) :
    Situated x source ⟨form, span⟩ := by
  apply situatedOver own
  rw [only]
  exact List.forall_mem_singleton.mpr below

theorem situatedBoth {l r : Node} (own : Occurs x source ⟨form, span⟩) (both : form.children = [l, r])
    (left : Situated x source l) (right : Situated x source r) : Situated x source ⟨form, span⟩ := by
  apply situatedOver own
  rw [both]
  exact List.forall_mem_cons.mpr ⟨left, List.forall_mem_singleton.mpr right⟩

theorem ReadsMembers.situated (h : ReadsMembers file object c n c') (before : Situated x source object) :
    Situated x source n := by
  induction h with
  | stop => exact before
  | step _ _ _ ih => exact ih (situatedBoth trivial rfl before (situatedLeaf trivial rfl))

theorem ReadsName.situated {chained : Bool} (h : ReadsName file chained n c c') : Situated x source n := by
  cases h with
  | simple => exact situatedLeaf trivial rfl
  | chain _ _ members => exact members.situated (situatedLeaf trivial rfl)
  | namespaced => exact situatedBoth trivial rfl (situatedLeaf trivial rfl) (situatedLeaf trivial rfl)

section Edges

def Sided (source : String) (c : Cursor) (n : Node) (c' : Cursor) : Prop :=
  n.span.closed source = true ∨ Edged source c n c'

theorem edgedHere (h : n.span = c.spanTo c' file) : Edged source c n c' := by
  rw [Cursor.spanTo] at h
  exact ⟨by rw [h], fun _ => by rw [h]⟩

theorem edgedFurther (sided : Sided source c n c₁) (left : form.leftmost = some n) :
    Edged source c ⟨form, n.spanUpTo c' file⟩ c' := by
  refine ⟨rfl, fun upright => ?_⟩
  rw [Node.uprightEq] at upright
  simp only [left, Option.all_some, Bool.and_eq_true, Bool.not_eq_true'] at upright
  cases sided with
  | inl closed =>
      rw [closed] at upright
      cases upright.1
  | inr edged => exact edged.start upright.2

theorem withinDrops (within : c.Within source) : Text.dropBytes c.position.offset source.toList = some c.rest := by
  obtain ⟨behind, whole, offset⟩ := within.offset
  rw [show c.position.offset = _ from offset, whole]
  exact Text.dropBytesAppend behind c.rest

theorem closedAt (within : c.Within source) (closes : c.Takes m ")" c') (stop : n.span.stop = c.position) :
    n.span.closed source = true := by
  obtain ⟨⟨rest, -⟩, -⟩ := nextTraces closes
  have front : (Trivia.split c.rest).2 = ')' :: c'.rest := rest
  rw [Span.closed, stop, withinDrops within, Option.any_some, front]
  rfl

end Edges

def Phrase.Hosted (x : Setting) (m : Mode) : Phrase → Prop
  | .ladder ls _ => m = .script ∧ ls <:+ levels
  | .operands level tighter _ _ => m = .script ∧ level :: tighter <:+ levels
  | .primary _ | .suffixes _ _ | .chain _ | .unary _ | .moreArguments _ | .arguments _ => m = .script
  | _ => x.config.jsx = true

def Phrase.Situates (x : Setting) (source : String) (d : Nat) (c c' : Cursor) : Phrase → Prop
  | .primary n | .chain n | .unary n | .ladder _ n => Situated x source n ∧ Sided source c n c'
  | .suffixes object n => ∀ s, s.Within source → Chained x d s object c → Situated x source object →
      Sided source s object c → Situated x source n ∧ Sided source s n c'
  | .operands level tighter left n => ∀ s, s.Within source → Folded x level tighter d s left c →
      Situated x source left → Sided source s left c → Situated x source n ∧ Sided source s n c'
  | .fragment n | .element n => Situated x source n ∧ n.span = c.spanTo c' x.file
  | .attributeValue n | .attribute n | .child n => Situated x source n
  | .moreArguments ns | .arguments ns | .attributes ns | .children ns => ∀ n ∈ ns, Situated x source n

section Further

theorem situatedMember {property : Node} {computed : Bool} (within : s.Within source)
    (chained : Chained x d s ⟨.member object property computed, object.spanUpTo c x.file⟩ c)
    (sided : Sided source s object c₁) (found : Situated x source object) (inside : Situated x source property) :
    Situated x source ⟨.member object property computed, object.spanUpTo c x.file⟩ ∧
      Sided source s ⟨.member object property computed, object.spanUpTo c x.file⟩ c := by
  have edged : Edged source s ⟨.member object property computed, object.spanUpTo c x.file⟩ c := edgedFurther sided rfl
  exact ⟨situatedBoth ⟨d, s, c, within, chained, edged⟩ rfl found inside, .inr edged⟩

theorem situatedCall {ns : List Node} (within : s.Within source)
    (chained : Chained x d s ⟨.call object ns, object.spanUpTo c x.file⟩ c) (sided : Sided source s object c₁)
    (found : Situated x source object) (inside : ∀ n ∈ ns, Situated x source n) :
    Situated x source ⟨.call object ns, object.spanUpTo c x.file⟩ ∧
      Sided source s ⟨.call object ns, object.spanUpTo c x.file⟩ c := by
  have edged : Edged source s ⟨.call object ns, object.spanUpTo c x.file⟩ c := edgedFurther sided rfl
  have place : Occurs x source ⟨.call object ns, object.spanUpTo c x.file⟩ := ⟨d, s, c, within, chained, edged⟩
  refine ⟨situatedOver place ?_, .inr edged⟩
  rw [childrenCall]
  exact List.forall_mem_cons.mpr ⟨found, inside⟩

theorem leftmostJoin (join : Join) (o : String) (l r : Node) : (join.form o l r).leftmost = some l := by
  cases join <;> rfl

theorem situatedJoin {level : Level} {tighter : List Level} {l r : Node} {o : String}
    (known : level :: tighter <:+ levels) (within : s.Within source)
    (folded : Folded x level tighter d s ⟨level.join.form o l r, l.spanUpTo c x.file⟩ c) (sided : Sided source s l c₁)
    (left : Situated x source l) (right : Situated x source r) :
    Situated x source ⟨level.join.form o l r, l.spanUpTo c x.file⟩ ∧
      Sided source s ⟨level.join.form o l r, l.spanUpTo c x.file⟩ c := by
  have edged : Edged source s ⟨level.join.form o l r, l.spanUpTo c x.file⟩ c :=
    edgedFurther sided (leftmostJoin _ _ _ _)
  refine ⟨?_, .inr edged⟩
  cases join : level.join with
  | binary =>
      rw [join] at folded edged
      exact situatedBoth ⟨level, tighter, d, s, c, within, known, folded, edged⟩ rfl left right
  | logical =>
      rw [join] at folded edged
      exact situatedBoth ⟨level, tighter, d, s, c, within, known, folded, edged⟩ rfl left right

end Further

section Markup

variable {ns as : List Node} {own closing : Node}

theorem situatedTag {selfClosing : Bool} (name : Situated x source own) (attributes : ∀ n ∈ as, Situated x source n) :
    Situated x source ⟨.openingElement own (presentList as) selfClosing, span⟩ := by
  have place : Occurs x source ⟨.openingElement own (presentList as) selfClosing, span⟩ := trivial
  apply situatedOver place
  rw [childrenOpening]
  exact List.forall_mem_cons.mpr ⟨name, attributes⟩

theorem situatedBetween {opening : Node} (own : Occurs x source ⟨form, span⟩)
    (row : form.children = opening :: (ns ++ [closing])) (first : Situated x source opening)
    (inside : ∀ n ∈ ns, Situated x source n) (last : Situated x source closing) : Situated x source ⟨form, span⟩ := by
  apply situatedOver own
  rw [row, List.forall_mem_cons, List.forall_mem_append, List.forall_mem_singleton]
  exact ⟨first, inside, last⟩

end Markup

theorem Reads.situates (h : Reads x ph m d c c') (within : c.Within source) (hosted : ph.Hosted x m) :
    ph.Situates x source d c c' := by
  -- What was read to the left is handed on as `Chained` or `Folded`, so that every node on the way has a reading of its own.
  induction h with
  | identifier | literal => exact ⟨situatedLeaf trivial rfl, .inr (edgedHere rfl)⟩
  | parenthesized opens room inside closes ih =>
      have at₁ := (nextReaches opens).within within
      obtain ⟨found, sided⟩ := ih at₁ ⟨hosted, List.suffix_refl _⟩
      refine ⟨found, .inl ?_⟩
      cases sided with
      | inl closed => exact closed
      | inr edged => exact closedAt (inside.goes.reaches.within at₁) closes edged.stop
  | fragmentPrimary allowed markup ih | elementPrimary allowed markup ih =>
      obtain ⟨found, span⟩ := ih within allowed
      exact ⟨found, .inr (edgedHere span)⟩
  | noSuffix | noOperand => exact fun s _ _ found sided => ⟨found, sided⟩
  | @memberSuffix m _ object _ name c c₁ c₂ _ dot own more ih =>
      intro s start chained found sided
      obtain rfl : m = .script := hosted
      have further := chained.member dot own
      obtain ⟨found', sided'⟩ := situatedMember start further sided found (situatedLeaf trivial rfl)
      exact ih (((nextReaches dot).trans (nextReaches own)).within within) rfl s start further found' sided'
  | @computedSuffix m _ object property _ c c₁ c₂ c₃ _ opens room inside closes more ihInside ih =>
      intro s start chained found sided
      obtain rfl : m = .script := hosted
      have at₁ := (nextReaches opens).within within
      have further := chained.computed opens room inside closes
      obtain ⟨found', sided'⟩ :=
        situatedMember start further sided found (ihInside at₁ ⟨rfl, List.suffix_refl _⟩).1
      exact ih ((inside.goes.reaches.trans (nextReaches closes)).within at₁) rfl s start further found' sided'
  | @callSuffix m _ object ns _ c c₁ c₂ c₃ _ opens room inside closes more ihInside ih =>
      intro s start chained found sided
      obtain rfl : m = .script := hosted
      have at₁ := (nextReaches opens).within within
      have further := chained.call opens room inside closes
      obtain ⟨found', sided'⟩ := situatedCall start further sided found (ihInside at₁ rfl)
      exact ih ((inside.goes.trans (nextReaches closes)).within at₁) rfl s start further found' sided'
  | chain first more ih ihMore =>
      obtain rfl := hosted
      obtain ⟨found, sided⟩ := ih within rfl
      exact ihMore (first.goes.reaches.within within) rfl _ within (.first first) found sided
  | plainUnary _ _ ih => exact ih within hosted
  | @unary m _ o n c _ c' operator known room operand ih =>
      obtain rfl : m = .script := hosted
      have edged : Edged source c ⟨.unary o true n, c.spanTo c' x.file⟩ c' := edgedHere rfl
      have found := (ih ((nextReaches operator).within within) rfl).1
      exact ⟨situatedOnly ⟨_, c, c', within, .unary operator known room operand, edged⟩ rfl found, .inr edged⟩
  | @operand m _ level tighter left right o _ c _ c₂ _ operator known operand more ih ihMore =>
      intro s start folded found sided
      obtain ⟨rfl, known?⟩ := hosted
      have at₁ := (nextReaches operator).within within
      have further := folded.more operator known operand
      have foundRight := (ih at₁ ⟨rfl, (List.suffix_cons level tighter).trans known?⟩).1
      obtain ⟨found', sided'⟩ := situatedJoin known? start further sided found foundRight
      exact ihMore (operand.goes.reaches.within at₁) ⟨rfl, known?⟩ s start further found' sided'
  | bottom _ ih => exact ih within hosted.1
  | @level m _ level tighter _ _ _ _ _ first more ih ihMore =>
      obtain ⟨rfl, known?⟩ := hosted
      obtain ⟨found, sided⟩ := ih within ⟨rfl, (List.suffix_cons level tighter).trans known?⟩
      exact ihMore (first.goes.reaches.within within) ⟨rfl, known?⟩ _ within (.first first) found sided
  | noMoreArguments | noArguments | noAttribute | noChild => exact List.forall_mem_nil _
  | moreArguments comma item more ih ihMore =>
      obtain rfl := hosted
      have at₁ := (nextReaches comma).within within
      have first := (ih at₁ ⟨rfl, List.suffix_refl _⟩).1
      exact List.forall_mem_cons.mpr ⟨first, ihMore (item.goes.reaches.within at₁) rfl⟩
  | arguments first more ih ihMore =>
      obtain rfl := hosted
      have found := (ih within ⟨rfl, List.suffix_refl _⟩).1
      exact List.forall_mem_cons.mpr ⟨found, ihMore (first.goes.reaches.within within) rfl⟩
  | fragment less greater room opens opened inside closes slash closed ih =>
      have at₂ := ((nextReaches opens).trans (nextReaches opened)).within within
      have place := Reads.fragment less greater room opens opened inside closes slash closed
      refine ⟨situatedBetween ⟨_, _, _, _, within, hosted, place⟩ (childrenFragment _ _ _) ?_ (ih at₂ hosted) ?_, rfl⟩
      · exact situatedLeaf trivial rfl
      · exact situatedLeaf trivial rfl
  | selfClosing less notClosing room opens name attributes slash closed ih =>
      have at₂ := ((nextReaches opens).trans name.advances.reaches).within within
      have place := Reads.selfClosing less notClosing room opens name attributes slash closed
      have found := ih at₂ hosted
      exact ⟨situatedOnly ⟨_, _, _, _, within, hosted, place⟩ rfl (situatedTag name.situated found), rfl⟩
  | element less notClosing room opens name attributes opened inside closes slash closingName closed same ih ihInside =>
      have at₂ := ((nextReaches opens).trans name.advances.reaches).within within
      have at₄ := (attributes.goes.trans (nextReaches opened)).within at₂
      have place := Reads.element less notClosing room opens name attributes opened inside closes slash closingName
        closed same
      have found := ih at₂ hosted
      refine ⟨situatedBetween ⟨_, _, _, _, within, hosted, place⟩ (childrenElement _ _ _) ?_ (ihInside at₄ hosted) ?_, rfl⟩
      · exact situatedTag name.situated found
      · exact situatedOnly trivial rfl closingName.situated
  | stringValue => exact situatedLeaf trivial rfl
  | containerValue opens _ _ ih | containerChild _ opens _ _ ih =>
      exact situatedOnly trivial rfl (ih ((nextReaches opens).within within) ⟨rfl, List.suffix_refl _⟩).1
  | fragmentValue _ ih | elementValue _ ih | fragmentChild _ _ ih | elementChild _ _ ih => exact (ih within hosted).1
  | spreadAttribute opens dots _ _ ih | spreadChild _ opens dots _ _ ih =>
      have at₂ := ((nextReaches opens).trans (nextReaches dots)).within within
      exact situatedOnly trivial rfl (ih at₂ ⟨rfl, List.suffix_refl _⟩).1
  | plainAttribute name => exact situatedOnly trivial rfl name.situated
  | valuedAttribute name equals _ ih =>
      have at₂ := (name.advances.reaches.trans (nextReaches equals)).within within
      exact situatedBoth trivial rfl name.situated (ih at₂ hosted)
  | attributes first more ih ihMore | children first more ih ihMore =>
      exact List.forall_mem_cons.mpr ⟨ih within hosted, ihMore (first.goes.reaches.within within) hosted⟩
  | text => exact situatedLeaf trivial rfl
  | emptyChild => exact situatedOnly trivial rfl (situatedLeaf trivial rfl)

theorem parseSituates {config : Config} (accepted : parse source config file = .ok n) :
    Situated ⟨config, file⟩ source n := by
  have read := parseReads source config file
  rw [accepted] at read
  obtain ⟨c', reads, -⟩ := read
  exact (reads.situates (Cursor.startWithin source) ⟨rfl, List.suffix_refl _⟩).1

end Grammar

end JsxTree
