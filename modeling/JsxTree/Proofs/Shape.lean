import JsxTree.Proofs.Spans

/-! The shapes that those who take trees apart rely on: which nodes stand in which slots, what
lists of children look like, and where an empty expression may stand. -/
namespace JsxTree

namespace Kind

def isExpression : Kind → Bool
  | identifier | literal | unary | binary | logical | member | call | fragment | element => true
  | _ => false

def isChild : Kind → Bool
  | jsxText | element | fragment | container | spreadChild => true
  | _ => false

def isPlainName : Kind → Bool
  | jsxIdentifier | namespacedName => true
  | _ => false

end Kind

def TextsApart : List Node → Prop
  | a :: b :: ns => ¬(a.kind = .jsxText ∧ b.kind = .jsxText) ∧ TextsApart (b :: ns)
  | _ => True

def WellListed (children : Option (List Node)) : Prop :=
  ∀ ns, children = some ns → ns ≠ [] ∧ (∀ n ∈ ns, n.kind.isChild = true) ∧ TextsApart ns

def IsAttributeValue (n : Node) : Prop :=
  (∃ s raw, n.form = .literal (.string s) raw) ∨ n.kind = .container ∨ n.kind = .element ∨ n.kind = .fragment

def TagsMatch (opening : Node) (closing : Option Node) (children : Option (List Node)) : Prop :=
  ∃ own attributes selfClosing, opening.form = .openingElement own attributes selfClosing ∧
    (selfClosing = true ↔ closing = none) ∧ (selfClosing = true → children = none) ∧
    ∀ c, closing = some c → ∃ name, c.form = .closingElement name ∧ own.sameName name = true

def Form.WellSlotted : Form Node → Prop
  | fragment opening closing children =>
      opening.kind = .openingFragment ∧ closing.kind = .closingFragment ∧ WellListed children
  | element opening closing children => TagsMatch opening closing children ∧ WellListed children
  | openingElement name attributes _ => name.kind.isName = true ∧
      ∀ ns, attributes = some ns → ns ≠ [] ∧ ∀ n ∈ ns, n.kind = .jsxAttribute ∨ n.kind = .spreadAttribute
  | closingElement name => name.kind.isName = true
  | namespacedName space name => space.kind = .jsxIdentifier ∧ name.kind = .jsxIdentifier
  | jsxMember object property =>
      (object.kind = .jsxIdentifier ∨ object.kind = .jsxMember) ∧ property.kind = .jsxIdentifier
  | jsxAttribute name value => name.kind.isPlainName = true ∧ ∀ n, value = some n → IsAttributeValue n
  | jsxText value raw => value = raw ∧ raw ≠ "" ∧ '<' ∉ raw.toList ∧ '{' ∉ raw.toList
  | container expression => expression.kind.isExpression = true ∨ expression.kind = .emptyExpression
  | spreadAttribute inner | spreadChild inner | unary _ _ inner => inner.kind.isExpression = true
  | binary _ left right | logical _ left right =>
      left.kind.isExpression = true ∧ right.kind.isExpression = true
  | member object property computed => object.kind.isExpression = true ∧ property.kind.isExpression = true ∧
      (computed = false → property.kind = .identifier)
  | call callee arguments => callee.kind.isExpression = true ∧ ∀ n ∈ arguments, n.kind.isExpression = true
  | openingFragment | closingFragment | jsxIdentifier _ | emptyExpression | identifier _ | literal _ _ => True

def Form.childList : Form Node → Option (List Node)
  | fragment _ _ children | element _ _ children => children
  | _ => none

def EmptyContainer (n : Node) : Prop := ∃ e, n.form = .container e ∧ e.kind = .emptyExpression

structure Shaped (source : String) (n : Node) : Prop where
  slots : n.form.WellSlotted
  empty : ∀ e ∈ n.form.children, e.kind = .emptyExpression → n.form = .container e ∧
    e.span.start = e.span.stop ∧ Text.slice n.span.start.offset e.span.start.offset source.toList = some ['{']
  listed : ∀ c ∈ n.form.children, EmptyContainer c → ∃ ns, n.form.childList = some ns ∧ c ∈ ns

namespace Grammar

open Cursor JsxTree.Parser

variable {source : String} {file : Option String} {x : Setting} {ph : Phrase} {m : Mode} {d : Nat} {c c' : Cursor}

def Sound (source : String) (n : Node) : Prop := n.Everywhere (Shaped source)

def Filled (n : Node) : Prop := n.kind ≠ .emptyExpression ∧ n.kind ≠ .container

theorem filledExpression {n : Node} (h : n.kind.isExpression = true) : Filled n := by
  constructor <;> intro kind <;> rw [kind] at h <;> cases h

theorem Filled.unheld {n : Node} (h : Filled n) : ¬EmptyContainer n := by
  rintro ⟨e, form, -⟩
  exact h.2 (by rw [Node.kind, form]; rfl)

theorem soundOver {n : Node} (slots : n.form.WellSlotted) (below : ∀ c ∈ n.form.children, Sound source c ∧ Filled c) :
    Sound source n := by
  refine Node.everywhereIff.mpr ⟨⟨slots, fun e inside kind => ?_, fun c inside held => ?_⟩, fun c inside => (below c inside).1⟩
  · exact absurd kind (below e inside).2.1
  · exact absurd held (below c inside).2.unheld

theorem soundLeaf {n : Node} (slots : n.form.WellSlotted) (childless : n.form.children = []) : Sound source n := by
  refine soundOver slots ?_
  rw [childless]
  exact List.forall_mem_nil _

theorem soundJsxIdentifier (name : String) (span : Span) :
    Sound source ⟨.jsxIdentifier name, span⟩ ∧ Filled ⟨.jsxIdentifier name, span⟩ :=
  ⟨soundLeaf trivial rfl, by constructor <;> intro kind <;> cases kind⟩

theorem filledName {n : Node} (h : n.kind.isName = true) : Filled n := by
  constructor <;> intro kind <;> rw [kind] at h <;> cases h

theorem ReadsMembers.sound {object n : Node} (h : ReadsMembers file object c n c') (before : Sound source object)
    (kind : object.kind = .jsxIdentifier ∨ object.kind = .jsxMember) : Sound source n ∧ n.kind.isName = true := by
  have named : object.kind.isName = true := by obtain kind | kind := kind <;> rw [kind] <;> rfl
  induction h with
  | stop => exact ⟨before, named⟩
  | step _ _ _ ih =>
      refine ih (soundOver ⟨kind, rfl⟩ (List.forall_mem_cons.mpr ⟨⟨before, filledName named⟩, ?_⟩)) (.inr rfl) rfl
      exact List.forall_mem_singleton.mpr (soundJsxIdentifier _ _)

theorem ReadsName.sound {chained : Bool} {n : Node} (h : ReadsName file chained n c c') :
    Sound source n ∧ n.kind.isName = true ∧ (chained = false → n.kind.isPlainName = true) := by
  cases h with
  | simple => exact ⟨soundLeaf trivial rfl, rfl, fun _ => rfl⟩
  | chain _ _ members =>
      obtain ⟨sound, name⟩ := members.sound (soundJsxIdentifier _ _).1 (.inl rfl)
      exact ⟨sound, name, fun no => by cases no⟩
  | namespaced =>
      refine ⟨soundOver ⟨rfl, rfl⟩ (List.forall_mem_cons.mpr ⟨soundJsxIdentifier _ _, ?_⟩), rfl, fun _ => rfl⟩
      exact List.forall_mem_singleton.mpr (soundJsxIdentifier _ _)

def SoundExpression (source : String) (n : Node) : Prop := Sound source n ∧ n.kind.isExpression = true

theorem SoundExpression.filled {n : Node} (h : SoundExpression source n) : Sound source n ∧ Filled n :=
  ⟨h.1, filledExpression h.2⟩

def Phrase.Shapes (source : String) : Phrase → Prop
  | .primary n | .chain n | .unary n | .ladder _ n => SoundExpression source n
  | .suffixes a n | .operands _ _ a n => SoundExpression source a → SoundExpression source n
  | .moreArguments ns | .arguments ns => ∀ n ∈ ns, SoundExpression source n
  | .fragment n => Sound source n ∧ n.kind = .fragment
  | .element n => Sound source n ∧ n.kind = .element
  | .attributeValue n => Sound source n ∧ IsAttributeValue n ∧ ¬EmptyContainer n ∧ n.kind ≠ .emptyExpression
  | .attribute n => Sound source n ∧ (n.kind = .jsxAttribute ∨ n.kind = .spreadAttribute)
  | .attributes ns => ∀ n ∈ ns, Sound source n ∧ (n.kind = .jsxAttribute ∨ n.kind = .spreadAttribute)
  | .child n => Sound source n ∧ n.kind.isChild = true
  | .children ns => (∀ n ∈ ns, Sound source n ∧ n.kind.isChild = true) ∧ TextsApart ns

theorem childText {n : Node} (h : Reads x (.child n) m d c c') (kind : n.kind = .jsxText) :
    (∃ raw, c.text? = some (raw, c')) := by
  cases h with
  | text run => exact ⟨_, run⟩
  | fragmentChild _ markup => cases markup; cases kind
  | elementChild _ markup => cases markup <;> cases kind
  | emptyChild | containerChild | spreadChild => cases kind

theorem childrenApart {n : Node} {ns : List Node} {c₁ : Cursor} (first : Reads x (.child n) m d c c₁)
    (more : Reads x (.children ns) m d c₁ c') (apart : TextsApart ns) : TextsApart (n :: ns) := by
  cases ns with
  | nil => trivial
  | cons b ns =>
      refine ⟨fun ⟨kind, kind'⟩ => ?_, apart⟩
      obtain ⟨raw, run⟩ := childText first kind
      cases more with
      | children second _ =>
          obtain ⟨raw', run'⟩ := childText second kind'
          rw [textMaximal run] at run'
          cases run'

theorem presentSome {ns ms : List Node} (h : presentList ns = some ms) : ms = ns ∧ ns ≠ [] := by
  cases ns with
  | nil => cases h
  | cons n ns => cases h; exact ⟨rfl, List.cons_ne_nil _ _⟩

theorem wellListed {ns : List Node} (h : (Phrase.children ns).Shapes source) : WellListed (presentList ns) := by
  intro ms present
  obtain ⟨rfl, nonempty⟩ := presentSome present
  exact ⟨nonempty, fun n inside => (h.1 n inside).2, h.2⟩

theorem soundTagged {n opening closing : Node} {ns : List Node} (slots : n.form.WellSlotted)
    (children : n.form.children = opening :: (ns ++ [closing])) (list : ns ≠ [] → n.form.childList = some ns)
    (first : Sound source opening ∧ Filled opening) (last : Sound source closing ∧ Filled closing)
    (inner : (Phrase.children ns).Shapes source) : Sound source n := by
  have all : ∀ c ∈ n.form.children, (Sound source c ∧ Filled c) ∨ c ∈ ns := by
    intro c inside
    rw [children, List.mem_cons, List.mem_append, List.mem_singleton] at inside
    obtain rfl | child | rfl := inside
    · exact .inl first
    · exact .inr child
    · exact .inl last
  refine Node.everywhereIff.mpr ⟨⟨slots, fun e inside kind => ?_, fun c inside held => ?_⟩, fun c inside => ?_⟩
  · obtain tag | child := all e inside
    · exact absurd kind tag.2.1
    · have proper := (inner.1 e child).2
      rw [kind] at proper
      cases proper
  · obtain tag | child := all c inside
    · exact absurd held tag.2.unheld
    · exact ⟨ns, list (List.ne_nil_of_mem child), child⟩
  · obtain tag | child := all c inside
    · exact tag.1
    · exact (inner.1 c child).1

theorem soundFragment {ns : List Node} {span span' whole : Span} (inner : (Phrase.children ns).Shapes source) :
    Sound source ⟨.fragment ⟨.openingFragment, span⟩ ⟨.closingFragment, span'⟩ (presentList ns), whole⟩ := by
  refine soundTagged ⟨rfl, rfl, wellListed inner⟩ (childrenFragment _ _ _)
    (fun nonempty => if_neg (by simpa using nonempty)) ⟨soundLeaf trivial rfl, ?_⟩ ⟨soundLeaf trivial rfl, ?_⟩ inner
  · constructor <;> intro kind <;> cases kind
  · constructor <;> intro kind <;> cases kind

theorem soundOpeningElement {own : Node} {as : List Node} {selfClosing : Bool} {span : Span}
    (name : Sound source own ∧ own.kind.isName = true) (attributes : (Phrase.attributes as).Shapes source) :
    Sound source ⟨.openingElement own (presentList as) selfClosing, span⟩ ∧
      Filled ⟨.openingElement own (presentList as) selfClosing, span⟩ := by
  refine ⟨soundOver ⟨name.2, ?_⟩ ?_, by constructor <;> intro kind <;> cases kind⟩
  · intro ms present
    obtain ⟨rfl, nonempty⟩ := presentSome present
    exact ⟨nonempty, fun n inside => (attributes n inside).2⟩
  · rw [childrenOpening]
    refine List.forall_mem_cons.mpr ⟨⟨name.1, filledName name.2⟩, fun c inside => ?_⟩
    obtain ⟨sound, kind⟩ := attributes c inside
    refine ⟨sound, ?_⟩
    obtain kind | kind := kind <;> constructor <;> intro other <;> rw [kind] at other <;> cases other

theorem soundClosingElement {closing : Node} {span : Span} (name : Sound source closing ∧ closing.kind.isName = true) :
    Sound source ⟨.closingElement closing, span⟩ ∧ Filled ⟨.closingElement closing, span⟩ :=
  ⟨soundOver name.2 (List.forall_mem_singleton.mpr ⟨name.1, filledName name.2⟩),
    by constructor <;> intro kind <;> cases kind⟩

theorem soundElement {own closing : Node} {as ns : List Node} {span span' whole : Span}
    (name : Sound source own ∧ own.kind.isName = true) (attributes : (Phrase.attributes as).Shapes source)
    (inner : (Phrase.children ns).Shapes source) (closingName : Sound source closing ∧ closing.kind.isName = true)
    (same : own.sameName closing = true) :
    Sound source ⟨.element ⟨.openingElement own (presentList as) false, span⟩ (some ⟨.closingElement closing, span'⟩)
      (presentList ns), whole⟩ := by
  have tags : TagsMatch ⟨.openingElement own (presentList as) false, span⟩ (some ⟨.closingElement closing, span'⟩)
      (presentList ns) := by
    refine ⟨own, presentList as, false, rfl, by simp, (fun no => by cases no), ?_⟩
    rintro _ ⟨⟩
    exact ⟨closing, rfl, same⟩
  exact soundTagged ⟨tags, wellListed inner⟩ (childrenElement _ _ _) (fun nonempty => if_neg (by simpa using nonempty))
    (soundOpeningElement name attributes) (soundClosingElement closingName) inner

theorem soundJoin (join : Join) {o : String} {l r : Node} {span : Span} (left : SoundExpression source l)
    (right : SoundExpression source r) : SoundExpression source ⟨join.form o l r, span⟩ := by
  have both : ∀ c ∈ [l, r], Sound source c ∧ Filled c :=
    List.forall_mem_cons.mpr ⟨left.filled, List.forall_mem_singleton.mpr right.filled⟩
  cases join with
  | binary => exact ⟨soundOver ⟨left.2, right.2⟩ both, rfl⟩
  | logical => exact ⟨soundOver ⟨left.2, right.2⟩ both, rfl⟩

theorem soundContainer {n : Node} {span : Span} (h : SoundExpression source n) :
    Sound source ⟨.container n, span⟩ ∧ ¬EmptyContainer ⟨.container n, span⟩ := by
  refine ⟨soundOver (.inl h.2) (List.forall_mem_singleton.mpr h.filled), ?_⟩
  rintro ⟨e, form, kind⟩
  cases form
  exact (filledExpression h.2).1 kind

theorem soundEmptyContainer {c₁ : Cursor} (within : c.Within source) (opens : c.Takes .jsx "\x7b" c₁) :
    Sound source ⟨.container ⟨.emptyExpression, c₁.position, c₁.position, file⟩, c.spanTo c' file⟩ := by
  have brace := (c.reachesSkip.within within).slice (nextTraces opens).1
  refine Node.everywhereIff.mpr ⟨⟨.inr rfl, ?_, ?_⟩, ?_⟩
  · exact List.forall_mem_singleton.mpr fun _ => ⟨rfl, rfl, brace⟩
  · refine List.forall_mem_singleton.mpr ?_
    rintro ⟨e, form, -⟩
    cases form
  · exact List.forall_mem_singleton.mpr (soundLeaf trivial rfl)

theorem soundAttribute {own value : Node} {span : Span} (name : Sound source own ∧ own.kind.isPlainName = true)
    (h : (Phrase.attributeValue value).Shapes source) : Sound source ⟨.jsxAttribute own (some value), span⟩ := by
  have kind : Filled own := by
    constructor <;> intro kind <;> rw [kind] at name <;> cases name.2
  obtain ⟨sound, proper, unheld, filled⟩ := h
  refine Node.everywhereIff.mpr ⟨⟨⟨name.2, ?_⟩, ?_, ?_⟩, ?_⟩
  · rintro _ ⟨⟩
    exact proper
  · exact List.forall_mem_cons.mpr ⟨fun no => absurd no kind.1, List.forall_mem_singleton.mpr fun no => absurd no filled⟩
  · exact List.forall_mem_cons.mpr ⟨fun held => absurd held kind.unheld,
      List.forall_mem_singleton.mpr fun held => absurd held unheld⟩
  · exact List.forall_mem_cons.mpr ⟨name.1, List.forall_mem_singleton.mpr sound⟩

theorem Reads.sound (h : Reads x ph m d c c') (within : c.Within source) : ph.Shapes source := by
  -- Only empty braces look at the source: where their expression stands is told from it.
  induction h with
  | identifier | literal => exact ⟨soundLeaf trivial rfl, rfl⟩
  | parenthesized opens _ _ _ ih => exact ih ((nextReaches opens).within within)
  | fragmentPrimary _ _ ih | elementPrimary _ _ ih =>
      obtain ⟨sound, kind⟩ := ih within
      exact ⟨sound, by rw [kind]; rfl⟩
  | noSuffix | noOperand => exact id
  | memberSuffix dot own _ ih =>
      intro object
      refine ih (((nextReaches dot).trans (nextReaches own)).within within) ⟨soundOver ⟨object.2, rfl, fun _ => rfl⟩ ?_, rfl⟩
      refine List.forall_mem_cons.mpr ⟨object.filled, List.forall_mem_singleton.mpr ⟨soundLeaf trivial rfl, ?_⟩⟩
      exact filledExpression rfl
  | computedSuffix opens _ inside closes _ ih more =>
      intro object
      have inner := (nextReaches opens).within within
      have property := ih inner
      refine more ((inside.goes.reaches.trans (nextReaches closes)).within inner) ⟨soundOver
        ⟨object.2, property.2, fun no => by cases no⟩ ?_, rfl⟩
      exact List.forall_mem_cons.mpr ⟨object.filled, List.forall_mem_singleton.mpr property.filled⟩
  | callSuffix opens _ inside closes _ ih more =>
      intro object
      have inner := (nextReaches opens).within within
      have items := ih inner
      refine more ((Reaches.trans inside.goes (nextReaches closes)).within inner) ⟨soundOver
        ⟨object.2, fun n inside => (items n inside).2⟩ ?_, rfl⟩
      rw [childrenCall]
      exact List.forall_mem_cons.mpr ⟨object.filled, fun n inside => (items n inside).filled⟩
  | chain first _ ih more | level first _ ih more => exact more (first.goes.reaches.within within) (ih within)
  | plainUnary _ _ ih | bottom _ ih => exact ih within
  | unary operator _ _ _ ih =>
      have operand := ih ((nextReaches operator).within within)
      exact ⟨soundOver operand.2 (List.forall_mem_singleton.mpr operand.filled), rfl⟩
  | operand operator _ operand _ ih more =>
      intro left
      have inner := (nextReaches operator).within within
      exact more (operand.goes.reaches.within inner) (soundJoin _ left (ih inner))
  | noMoreArguments | noArguments | noAttribute => exact List.forall_mem_nil _
  | moreArguments comma item _ ih more =>
      have inner := (nextReaches comma).within within
      exact List.forall_mem_cons.mpr ⟨ih inner, more (item.goes.reaches.within inner)⟩
  | arguments first _ ih more | attributes first _ ih more =>
      exact List.forall_mem_cons.mpr ⟨ih within, more (first.goes.reaches.within within)⟩
  | fragment _ _ _ opens opened _ _ _ _ ih =>
      exact ⟨soundFragment (ih (((nextReaches opens).trans (nextReaches opened)).within within)), rfl⟩
  | @selfClosing _ _ own as c _ _ _ _ _ c' _ _ _ opens name _ _ _ ih =>
      have inner := (nextReaches opens).within within
      obtain ⟨sound, kind, -⟩ : Sound source own ∧ _ := name.sound
      have opening : Sound source ⟨.openingElement own (presentList as) true, c.spanTo c' x.file⟩ ∧
          Filled ⟨.openingElement own (presentList as) true, c.spanTo c' x.file⟩ :=
        soundOpeningElement ⟨sound, kind⟩ (ih (name.advances.reaches.within inner))
      refine ⟨soundOver ⟨⟨_, _, true, rfl, by simp, fun _ => rfl, fun _ no => by cases no⟩, fun _ no => by cases no⟩ ?_, rfl⟩
      exact List.forall_mem_singleton.mpr opening
  | @element _ _ own _ _ closing _ _ _ _ _ _ _ _ _ _ _ _ _ _ opens name attributes opened _ _ _ closingName _ same ih ih' =>
      have inner := (nextReaches opens).within within
      have tag := name.advances.reaches.within inner
      have start := Reaches.within attributes.goes tag
      obtain ⟨sound, kind, -⟩ : Sound source own ∧ _ := name.sound
      obtain ⟨soundClosing, kindClosing, -⟩ : Sound source closing ∧ _ := closingName.sound
      exact ⟨soundElement ⟨sound, kind⟩ (ih tag) (ih' ((nextReaches opened).within start)) ⟨soundClosing, kindClosing⟩ same,
        rfl⟩
  | stringValue =>
      refine ⟨soundLeaf trivial rfl, .inl ⟨_, _, rfl⟩, ?_, fun no => by cases no⟩
      rintro ⟨_, form, -⟩
      cases form
  | containerValue opens _ _ ih =>
      obtain ⟨sound, unheld⟩ := soundContainer (ih ((nextReaches opens).within within))
      exact ⟨sound, .inr (.inl rfl), unheld, fun no => by cases no⟩
  | fragmentValue _ ih =>
      obtain ⟨sound, kind⟩ := ih within
      have filled := filledExpression (by rw [kind]; rfl)
      exact ⟨sound, .inr (.inr (.inr kind)), filled.unheld, filled.1⟩
  | elementValue _ ih =>
      obtain ⟨sound, kind⟩ := ih within
      have filled := filledExpression (by rw [kind]; rfl)
      exact ⟨sound, .inr (.inr (.inl kind)), filled.unheld, filled.1⟩
  | spreadAttribute opens dots _ _ ih =>
      have argument := ih (((nextReaches opens).trans (nextReaches dots)).within within)
      exact ⟨soundOver argument.2 (List.forall_mem_singleton.mpr argument.filled), .inr rfl⟩
  | @plainAttribute _ own _ _ name =>
      obtain ⟨sound, kind, plain⟩ : Sound source own ∧ _ := name.sound
      exact ⟨soundOver ⟨plain rfl, fun _ no => by cases no⟩ (List.forall_mem_singleton.mpr ⟨sound, filledName kind⟩), .inl rfl⟩
  | @valuedAttribute _ own _ _ _ _ _ name equals _ ih =>
      obtain ⟨sound, kind, plain⟩ : Sound source own ∧ _ := name.sound
      have value := ih ((name.advances.reaches.trans (nextReaches equals)).within within)
      exact ⟨soundAttribute ⟨sound, plain rfl⟩ value, .inl rfl⟩
  | text run =>
      have plain := textPlain run
      refine ⟨soundLeaf ⟨rfl, fun empty => (textTraces run).2 (by rw [empty]; rfl), fun inside => ?_, fun inside => ?_⟩ rfl, rfl⟩
      · have no := plain _ inside; cases no
      · have no := plain _ inside; cases no
  | fragmentChild _ _ ih | elementChild _ _ ih =>
      obtain ⟨sound, kind⟩ := ih within
      exact ⟨sound, by rw [kind]; rfl⟩
  | emptyChild _ opens => exact ⟨soundEmptyContainer within opens, rfl⟩
  | containerChild _ opens _ _ ih => exact ⟨(soundContainer (ih ((nextReaches opens).within within))).1, rfl⟩
  | spreadChild _ opens dots _ _ ih =>
      have argument := ih (((nextReaches opens).trans (nextReaches dots)).within within)
      exact ⟨soundOver argument.2 (List.forall_mem_singleton.mpr argument.filled), rfl⟩
  | noChild => exact ⟨List.forall_mem_nil _, trivial⟩
  | @children _ n ns c c₁ _ first more ih ih' =>
      obtain ⟨proper, apart⟩ := ih' (first.goes.reaches.within within)
      exact ⟨List.forall_mem_cons.mpr ⟨ih within, proper⟩, childrenApart first more apart⟩

end Grammar

/-- Every tree that a parse comes to is an expression with well shaped nodes throughout. -/
theorem parseShaped (source : String) (config : Config) (file : Option String) :
    match parse source config file with
    | .ok n => n.kind.isExpression = true ∧ ∀ m ∈ n.preorder, Shaped source m
    | .error _ => True := by
  have read := Grammar.parseReads source config file
  cases outcome : parse source config file with
  | ok n =>
      rw [outcome] at read
      obtain ⟨c', reads, -⟩ := read
      obtain ⟨sound, kind⟩ := reads.sound (Cursor.startWithin source)
      exact ⟨kind, sound⟩
  | error h => trivial

end JsxTree
