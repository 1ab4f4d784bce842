import JsxTree.Proofs.Restored

/-! Trees, read or made by hand, that never needed parentheses around a sign or a number. Their normal form
is read back under any limit that is not below the number of their nodes. -/
namespace JsxTree

namespace Node

def isNumeral (n : Node) : Bool :=
  match n.form with
  | .literal (.number _) _ => true
  | _ => false

def plain (n : Node) : Bool :=
  match n.form with
  | .unary _ _ argument => argument.kind != .unary
  | .member object _ computed => object.kind != .unary && (computed || !object.isNumeral)
  | .call callee _ => callee.kind != .unary
  | _ => true

structure Canonical (limit depth : Nat) (n : Node) : Prop where
  plain : n.Everywhere (plain · = true)
  room : n.preorder.length + depth ≤ limit

variable {limit depth : Nat} {n c : Node}

theorem childShorter (inside : c ∈ n.form.children) : c.preorder.length < n.preorder.length := by
  rw [preorderEq n, List.length_cons]
  have sub : c.preorder.Sublist (n.form.children.flatMap preorder) := by
    obtain ⟨before, after, whole⟩ := List.append_of_mem inside
    rw [whole, List.flatMap_append, List.flatMap_cons]
    exact (List.sublist_append_left _ _).trans (List.sublist_append_right _ _)
  exact Nat.lt_succ_of_le sub.length_le

theorem Canonical.child (h : n.Canonical limit depth) (inside : c ∈ n.form.children) : c.Canonical limit (depth + 1) where
  plain := (everywhereIff.mp h.plain).2 c inside
  room := by
    have shorter := childShorter inside
    have room := h.room
    omega

theorem Canonical.earlier (h : n.Canonical limit (depth + 1)) : n.Canonical limit depth :=
  ⟨h.plain, Nat.le_of_succ_le h.room⟩

theorem Canonical.own (h : n.Canonical limit depth) : n.plain = true := (everywhereIff.mp h.plain).1

theorem Canonical.deeper (h : n.Canonical limit depth) : depth < limit := by
  have room := h.room
  rw [preorderEq, List.length_cons] at room
  omega

end Node

open Node Grammar

theorem Formed.undotted {n : Node} {role : Role} (h : Formed role n) (own : role = .expression)
    (signless : n.kind ≠ .unary) (other : n.isNumeral = false) : n.endsDecimal = false := by
  cases h with
  | @literal k v span token value =>
      have words : ∀ s ∈ ["true", "false", "null"], s.toList.all Lexeme.isDecimalPart = false := by decide
      cases k with
      | numericLiteral raw =>
          cases value
          cases other
      | stringLiteral raw =>
          obtain ⟨q, es, text, other⟩ := Lexeme.stringQuoted token
          have first : raw.toList.all Lexeme.isDecimalPart = false := by rw [text, List.all_cons, other, Bool.false_and]
          exact first
      | boolean b => cases b <;> exact words _ (by decide)
      | null => exact words _ (by decide)
      | _ => cases value
  | unary => exact absurd rfl signless
  | @join level => cases level with | mk operators join => cases join <;> rfl
  | expressionMarkup tagged => cases tagged <;> rfl
  | identifier | member | computed | call => rfl
  | _ => cases own

theorem Formed.fits {n : Node} {role : Role} {limit depth : Nat} (h : Formed role n) (canonical : n.Canonical limit depth) :
    n.Fits limit depth := by
  -- A level is entered only for a child, and the child has one node less: `.earlier` gives back the level where the normal
  -- form enters none.
  induction h generalizing depth with
  | identifier | literal | stringValue | text => exact fitsLeaf rfl rfl rfl
  | @unary o a span known formed ih =>
      have apart : a.kind ≠ .unary := by simpa [Node.plain] using canonical.own
      have separable : (⟨.unary o true a, span⟩ : Node).separable = true := by
        obtain ⟨form, _⟩ := a
        cases form <;> first | rfl | exact absurd rfl apart
      exact fitsUnary.mpr ⟨separable, canonical.deeper, ih (canonical.child (List.mem_singleton_self _))⟩
  | @join level o l r _ _ _ _ _ left right =>
      have both : (level.join.form o l r).children = [l, r] := by cases level.join <;> rfl
      exact (fitsJoin level.join).mpr
        ⟨canonical.deeper, left (canonical.child (by simp [both])), right (canonical.child (by simp [both]))⟩
  | @member object _ _ _ formed _ ih =>
      obtain ⟨plain, other⟩ : object.kind ≠ .unary ∧ object.isNumeral = false := by simpa [Node.plain] using canonical.own
      exact fitsMember.mpr ⟨plain, formed.undotted rfl plain other, ih (canonical.child List.mem_cons_self).earlier⟩
  | @computed object _ _ _ _ ih inside =>
      have plain : object.kind ≠ .unary := by simpa [Node.plain] using canonical.own
      exact fitsComputed.mpr ⟨plain, ih (canonical.child List.mem_cons_self).earlier, canonical.deeper,
        inside (canonical.child (List.mem_cons_of_mem _ (List.mem_singleton_self _)))⟩
  | call _ _ ih inside =>
      exact fitsCall.mpr ⟨by simpa [Node.plain] using canonical.own, ih (canonical.child List.mem_cons_self).earlier,
        canonical.deeper, fun n member => inside n member (canonical.child (by simp [childrenCall, member]))⟩
  | expressionMarkup _ ih | markupValue _ ih | markupChild _ ih => exact ih canonical
  | fragment _ _ _ ih =>
      exact fitsFragment.mpr ⟨canonical.deeper, fun n member =>
        ih n member (canonical.child (by simp [childrenFragment, member]))⟩
  | @selfClosing m own as span _ name _ ih =>
      have opening : (⟨.openingElement own (presentList as) true, span⟩ : Node).Canonical limit (depth + 1) :=
        canonical.child List.mem_cons_self
      exact (fitsSelfClosing name).mpr ⟨canonical.deeper, fun a member =>
        ih a member (opening.child (by simp [childrenOpening, member])).earlier⟩
  | @element m own as ns closing span _ _ name _ _ _ closingName _ ih ih' =>
      have opening : (⟨.openingElement own (presentList as) false, span⟩ : Node).Canonical limit (depth + 1) :=
        canonical.child List.mem_cons_self
      exact (fitsElement name closingName).mpr ⟨canonical.deeper,
        fun a member => ih a member (opening.child (by simp [childrenOpening, member])).earlier,
        fun n member => ih' n member (canonical.child (by simp [childrenElement, member]))⟩
  | containerValue _ ih | containerChild _ ih =>
      exact fitsContainer.mpr (ih (canonical.child (List.mem_singleton_self _)).earlier)
  | spreadAttribute _ ih =>
      exact fitsSpreadAttribute.mpr (ih (canonical.child (List.mem_singleton_self _)).earlier)
  | spreadChild _ ih =>
      exact fitsSpreadChild.mpr (ih (canonical.child (List.mem_singleton_self _)).earlier)
  | plainAttribute name => exact fitsPlainAttribute name
  | valuedAttribute name _ ih =>
      exact (fitsValuedAttribute name).mpr
        (ih (canonical.child (List.mem_cons_of_mem _ (List.mem_singleton_self _))).earlier)
  | emptyChild => exact fitsContainer.mpr (fitsLeaf rfl rfl rfl)

/-- A tree that has the shape and the words of an accepted one and is plain throughout is read from its normal form, up
to spans, whatever the limit, if only all of its nodes could nest. -/
theorem canonicalReads {n : Node} {config : Config} (formed : Formed .expression n) (plain : n.Everywhere (Node.plain · = true))
    (allowed : config.jsx = true) (room : n.preorder.length ≤ config.maxDepth) (file : Option String) :
    ∃ z, parse n.source config file = .ok z ∧ z.Alike n :=
  formed.rereads allowed (formed.fits ⟨plain, room⟩) file

def Node.sample : Node :=
  let span := Span.emptyAt .origin
  let own : Node := ⟨.jsxIdentifier "a", span⟩
  let value : Node := ⟨.literal (.string (Literal.unquote "\"c\"")) "\"c\"", span⟩
  let assigned : Node := ⟨.jsxAttribute ⟨.jsxIdentifier "b", span⟩ (some value), span⟩
  let member : Node := ⟨.member ⟨.identifier "e", span⟩ ⟨.identifier "f", span⟩ false, span⟩
  ⟨.element ⟨.openingElement own (presentList [assigned]) false, span⟩ (some ⟨.closingElement own, span⟩)
    (presentList [⟨.jsxText "d" "d", span⟩, ⟨.container ⟨.unary "!" true member, span⟩, span⟩]), span⟩

theorem sampleFormed : Formed .expression Node.sample := by
  have own : NameFormed true ⟨.jsxIdentifier "a", Span.emptyAt .origin⟩ := .chain (.own (by decide))
  have value : Formed .value ⟨.literal (.string (Literal.unquote "\"c\"")) "\"c\"", Span.emptyAt .origin⟩ :=
    .stringValue (by decide)
  have member : Formed .expression ⟨.member ⟨.identifier "e", Span.emptyAt .origin⟩
      ⟨.identifier "f", Span.emptyAt .origin⟩ false, Span.emptyAt .origin⟩ :=
    .member (.identifier (by decide)) (by decide)
  refine .expressionMarkup (.element own ?_ ?_ ?_ own (by decide))
  · exact List.forall_mem_singleton.mpr (.valuedAttribute (.simple (by decide)) value)
  · refine List.forall_mem_cons.mpr ⟨.text (by decide) (Text.every (by decide)), List.forall_mem_singleton.mpr ?_⟩
    exact .containerChild (.unary (by decide) member)
  · exact ⟨by decide, trivial⟩

theorem canonicalReadsSample : Formed .expression Node.sample ∧ Node.sample.Everywhere (Node.plain · = true) ∧
    ({} : Config).jsx = true ∧ Node.sample.preorder.length ≤ ({} : Config).maxDepth ∧
    ∃ z, parse Node.sample.source {} none = .ok z ∧ z.Alike Node.sample := by
  have plain : Node.sample.Everywhere (Node.plain · = true) := List.all_eq_true.mp (by decide)
  have room : Node.sample.preorder.length ≤ ({} : Config).maxDepth := by decide
  exact ⟨sampleFormed, plain, rfl, room, canonicalReads sampleFormed plain rfl room none⟩

end JsxTree
