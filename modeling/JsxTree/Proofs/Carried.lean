import JsxTree.Proofs.Reread
import JsxTree.Proofs.Spelling

/-! Reading another text along with one that has been read. Cursors in the two texts are related, and wherever an item of
the first text is found again in the second one, so is everything that is made of such items: as the same nodes but for
spans, and at no greater depth. -/
namespace JsxTree

namespace Node

variable {a b c d : Node} {as bs : List Node} {span span' : Span}

theorem alikeJsxMember (object : a.Alike b) (property : c.Alike d) :
    (⟨.jsxMember a c, span⟩ : Node).Alike ⟨.jsxMember b d, span'⟩ := by
  rw [Alike] at object property
  exact alikeForms.mpr (by simp only [Form.map, object, property])

theorem alikeUnary {o : String} {leading : Bool} (argument : a.Alike b) :
    (⟨.unary o leading a, span⟩ : Node).Alike ⟨.unary o leading b, span'⟩ := by
  rw [Alike] at argument
  exact alikeForms.mpr (by simp only [Form.map, argument])

theorem alikeJoin (join : Parser.Join) {o : String} (left : a.Alike b) (right : c.Alike d) :
    (⟨join.form o a c, span⟩ : Node).Alike ⟨join.form o b d, span'⟩ := by
  rw [Alike] at left right
  cases join with
  | binary => exact alikeForms.mpr (by simp only [Parser.Join.form, Form.map, left, right])
  | logical => exact alikeForms.mpr (by simp only [Parser.Join.form, Form.map, left, right])

theorem alikeMember {computed : Bool} (object : a.Alike b) (property : c.Alike d) :
    (⟨.member a c computed, span⟩ : Node).Alike ⟨.member b d computed, span'⟩ := by
  rw [Alike] at object property
  exact alikeForms.mpr (by simp only [Form.map, object, property])

theorem alikeCall (callee : a.Alike b) (arguments : AllAlike as bs) :
    (⟨.call a as, span⟩ : Node).Alike ⟨.call b bs, span'⟩ := by
  rw [Alike] at callee
  rw [AllAlike] at arguments
  exact alikeForms.mpr (by simp only [Form.map, callee, arguments])

theorem alikeOpening {selfClosing : Bool} (name : a.Alike b) (attributes : AllAlike as bs) :
    (⟨.openingElement a (Grammar.presentList as) selfClosing, span⟩ : Node).Alike
      ⟨.openingElement b (Grammar.presentList bs) selfClosing, span'⟩ := by
  rw [Alike] at name
  exact alikeForms.mpr (by simp only [Form.map, name, attributes.present])

theorem alikeClosing (name : a.Alike b) : (⟨.closingElement a, span⟩ : Node).Alike ⟨.closingElement b, span'⟩ := by
  rw [Alike] at name
  exact alikeForms.mpr (by simp only [Form.map, name])

theorem alikeFragment (opening : a.Alike b) (closing : c.Alike d) (children : AllAlike as bs) :
    (⟨.fragment a c (Grammar.presentList as), span⟩ : Node).Alike ⟨.fragment b d (Grammar.presentList bs), span'⟩ := by
  rw [Alike] at opening closing
  exact alikeForms.mpr (by simp only [Form.map, opening, closing, children.present])

theorem alikeElement (opening : a.Alike b) (closing : c.Alike d) (children : AllAlike as bs) :
    (⟨.element a (some c) (Grammar.presentList as), span⟩ : Node).Alike
      ⟨.element b (some d) (Grammar.presentList bs), span'⟩ := by
  rw [Alike] at opening closing
  exact alikeForms.mpr (by simp only [Form.map, Option.map_some, opening, closing, children.present])

theorem alikeTag (opening : a.Alike b) :
    (⟨.element a none none, span⟩ : Node).Alike ⟨.element b none none, span'⟩ := by
  rw [Alike] at opening
  exact alikeForms.mpr (by simp only [Form.map, opening, Option.map_none])

theorem alikePlainAttribute (name : a.Alike b) :
    (⟨.jsxAttribute a none, span⟩ : Node).Alike ⟨.jsxAttribute b none, span'⟩ := by
  rw [Alike] at name
  exact alikeForms.mpr (by simp only [Form.map, name, Option.map_none])

theorem alikeValuedAttribute (name : a.Alike b) (value : c.Alike d) :
    (⟨.jsxAttribute a (some c), span⟩ : Node).Alike ⟨.jsxAttribute b (some d), span'⟩ := by
  rw [Alike] at name value
  exact alikeForms.mpr (by simp only [Form.map, name, value, Option.map_some])

theorem alikeSpreadAttribute (inner : a.Alike b) :
    (⟨.spreadAttribute a, span⟩ : Node).Alike ⟨.spreadAttribute b, span'⟩ := by
  rw [Alike] at inner
  exact alikeForms.mpr (by simp only [Form.map, inner])

theorem alikeSpreadChild (inner : a.Alike b) : (⟨.spreadChild a, span⟩ : Node).Alike ⟨.spreadChild b, span'⟩ := by
  rw [Alike] at inner
  exact alikeForms.mpr (by simp only [Form.map, inner])

theorem alikeContainer (inner : a.Alike b) : (⟨.container a, span⟩ : Node).Alike ⟨.container b, span'⟩ := by
  rw [Alike] at inner
  exact alikeForms.mpr (by simp only [Form.map, inner])

end Node

/-- Two texts side by side: how their cursors are related, which items of the first one are found again in the second,
and where both have nothing more to come. -/
structure Passage where
  rel : Cursor → Cursor → Prop
  spares : Item → Prop
  ends : Cursor → Prop
  token : ∀ ⦃m k c c' b⦄, rel c b → c.next? m = some (k, c') → k.isInvalid = false → spares (.token c c') →
    ∃ b', b.next? m = some (k, b') ∧ rel c' b'
  text : ∀ ⦃raw c c' b⦄, rel c b → c.text? = some (raw, c') → spares (.text c c') →
    ∃ b', b.text? = some (raw, b') ∧ rel c' b'
  bare : ∀ ⦃c b⦄, rel c b → c.text? = none → spares (.bare c) → b.text? = none
  nothing : ∀ ⦃m c b⦄, rel c b → ends c → b.next? m = none

namespace Passage

variable {w : Passage} {m : Mode} {b b' c c' : Cursor} {k : Token.Kind}

def Sees (w : Passage) (m : Mode) (c : Cursor) : Prop :=
  w.ends c ∨ ∃ k c', c.next? m = some (k, c') ∧ k.isInvalid = false ∧ w.spares (.token c c')

theorem Sees.only (h : w.Sees m c) (related : w.rel c b) (next : b.next? m = some (k, b')) :
    ∃ c', c.next? m = some (k, c') := by
  rcases h with ends | ⟨k', c', there, valid, spared⟩
  · rw [w.nothing related ends] at next
    cases next
  · obtain ⟨b'', here, -⟩ := w.token related there valid spared
    rw [here] at next
    cases next
    exact ⟨c', there⟩

theorem Sees.stops {ps : List String} (h : w.Sees m c) (related : w.rel c b) (stop : c.Stops ps m) : b.Stops ps m := by
  intro p b' next
  obtain ⟨c', there⟩ := h.only related next
  exact stop p c' there

theorem takes {o : String} (related : w.rel c b) (takes : c.Takes m o c') (spared : w.spares (.token c c')) :
    ∃ b', b.Takes m o b' ∧ w.rel c' b' := w.token related takes rfl spared

def All (w : Passage) (items : List Item) : Prop := ∀ item ∈ items, w.spares item

@[simp] theorem allCons {item : Item} {items : List Item} : w.All (item :: items) ↔ w.spares item ∧ w.All items :=
  List.forall_mem_cons

@[simp] theorem allAppend {items more : List Item} : w.All (items ++ more) ↔ w.All items ∧ w.All more :=
  List.forall_mem_append

theorem takesSees {o : String} (takes : c.Takes m o c') (spared : w.spares (.token c c')) : w.Sees m c :=
  .inr ⟨_, _, takes, rfl, spared⟩

end Passage

namespace Grammar

open Cursor JsxTree.Parser

variable {x : Setting} {w : Passage} {ph : Phrase} {file again : Option String} {m m' : Mode} {d d' : Nat}
  {a b c c' c₁ c₂ c₃ : Cursor} {n object own : Node} {ns as : List Node} {items after : List Item}

section Fronts

theorem startsValid {k : Token.Kind} (h : startsExpression k = true) : k.isInvalid = false := by
  cases k <;> first | rfl | cases h

theorem literalValid {k : Token.Kind} {v : Value} (h : literalValue? k = some v) : k.isInvalid = false :=
  startsValid (startsLiteral h)

def Fronts (m : Mode) (c : Cursor) (items : List Item) (c' : Cursor) : Prop :=
  (items = [] ∧ c = c') ∨ ∃ k c₁ more, c.next? m = some (k, c₁) ∧ k.isInvalid = false ∧ items = .token c c₁ :: more

theorem frontsToken {k : Token.Kind} (next : c.next? m = some (k, c₁)) (valid : k.isInvalid = false) :
    Fronts m c (.token c c₁ :: items) c' := .inr ⟨k, c₁, items, next, valid, rfl⟩

theorem Fronts.append (first : Fronts m c items c₁) (more : Fronts m c₁ after c') : Fronts m c (items ++ after) c' := by
  rcases first with ⟨rfl, rfl⟩ | ⟨k, c₂, rest, next, valid, rfl⟩
  · exact more
  · exact frontsToken next valid

theorem Fronts.sees (h : Fronts m c items c') (spared : w.All items) (sees : w.Sees m c') :
    w.Sees m c := by
  rcases h with ⟨rfl, rfl⟩ | ⟨k, c₁, more, next, valid, rfl⟩
  · exact sees
  · exact .inr ⟨k, c₁, next, valid, (Passage.allCons.mp spared).1⟩

theorem SpellsMembers.fronts (h : SpellsMembers file object c n c' items) : Fronts .jsx c items c' := by
  cases h with
  | stop => exact .inl ⟨rfl, rfl⟩
  | step dot => exact frontsToken dot rfl

theorem SpellsName.fronts {chained : Bool} (h : SpellsName file chained n c c' items) : Fronts .jsx c items c' := by
  cases h with
  | simple own | chain own | namespaced own => exact frontsToken own rfl

def Phrase.Tokened : Phrase → Prop
  | .child _ | .children _ => False
  | _ => True

theorem Spells.fronts (h : Spells x ph m d c c' items) (tokened : ph.Tokened) : Fronts m c items c' := by
  induction h with
  | identifier token | stringValue token => exact frontsToken token rfl
  | literal token value => exact frontsToken token (literalValid value)
  | parenthesized opens | memberSuffix opens | computedSuffix opens | callSuffix opens | unary opens | operand opens
  | moreArguments opens | containerValue opens | spreadAttribute opens => exact frontsToken opens rfl
  | fragment less _ _ opens | selfClosing less _ _ opens | element less _ _ opens =>
      obtain rfl := takesAlike less opens
      exact frontsToken less rfl
  | fragmentPrimary _ _ ih | elementPrimary _ _ ih | plainUnary _ _ ih | bottom _ ih | fragmentValue _ ih
  | elementValue _ ih => exact ih trivial
  | noSuffix | noOperand | noMoreArguments | noArguments | noAttribute => exact .inl ⟨rfl, rfl⟩
  | chain _ _ first more | level _ _ first more | arguments _ _ first more | attributes _ _ first more =>
      exact (first trivial).append (more trivial)
  | plainAttribute name => exact name.fronts
  | valuedAttribute name equals => exact name.fronts.append (frontsToken equals rfl)
  | _ => exact tokened.elim

end Fronts

section Names

theorem SpellsMembers.carried (h : SpellsMembers file object c n c' items) (again : Option String) {o : Node}
    (alike : o.Alike object) (spared : w.All items) (related : w.rel c b) (sees : w.Sees .jsx c') :
    ∃ z b', w.rel c' b' ∧ z.Alike n ∧ ReadsMembers again o b z b' := by
  induction h generalizing b o with
  | stop stop => exact ⟨o, b, related, alike, .stop (sees.stops related stop)⟩
  | step dot own more ih =>
      simp only [Passage.allCons] at spared
      obtain ⟨dotted, named, later⟩ := spared
      obtain ⟨b₁, dot', related₁⟩ := Passage.takes related dot dotted
      obtain ⟨b₂, own', related₂⟩ := w.token related₁ own rfl named
      obtain ⟨z, b', related', alike', more'⟩ :=
        ih (Node.alikeJsxMember alike (Node.alikeForms.mpr rfl)) later related₂ sees
      exact ⟨z, b', related', alike', .step dot' own' more'⟩

theorem SpellsName.carried {chained : Bool} (h : SpellsName file chained n c c' items) (again : Option String)
    (spared : w.All items) (related : w.rel c b) (sees : w.Sees .jsx c') :
    ∃ z b', w.rel c' b' ∧ z.Alike n ∧ ReadsName again chained z b b' := by
  cases h with
  | simple own stop =>
      obtain ⟨b', own', related'⟩ := w.token related own rfl (Passage.allCons.mp spared).1
      exact ⟨_, b', related', Node.alikeForms.mpr rfl, .simple own' (sees.stops related' stop)⟩
  | chain own stop members =>
      obtain ⟨first, later⟩ := Passage.allCons.mp spared
      have seesFirst := members.fronts.sees later sees
      obtain ⟨b₁, own', related₁⟩ := w.token related own rfl first
      obtain ⟨z, b', related', alike, members'⟩ :=
        members.carried again (o := ⟨.jsxIdentifier _, b.spanTo b₁ again⟩) (Node.alikeForms.mpr rfl) later related₁ sees
      exact ⟨z, b', related', alike, .chain own' (seesFirst.stops related₁ stop) members'⟩
  | namespaced space colon own =>
      simp only [Passage.allCons] at spared
      obtain ⟨first, second, third, -⟩ := spared
      obtain ⟨b₁, space', related₁⟩ := w.token related space rfl first
      obtain ⟨b₂, colon', related₂⟩ := Passage.takes related₁ colon second
      obtain ⟨b', own', related'⟩ := w.token related₂ own rfl third
      exact ⟨_, b', related', Node.alikeForms.mpr (by simp only [Form.map, Node.withoutSpansEq]),
        .namespaced space' colon' own'⟩

end Names

theorem carriedBoth {o : String} (related : w.rel c b) (takes : c.Takes m o c₁) (takes' : c.Takes m' o c₂)
    (spared : w.spares (.token c c₂)) : ∃ b₁, b.Takes m o b₁ ∧ b.Takes m' o b₁ ∧ w.rel c₂ b₁ := by
  obtain rfl := takesAlike takes takes'
  obtain ⟨b₁, first, related₁⟩ := Passage.takes related takes spared
  obtain ⟨b₂, second, -⟩ := Passage.takes related takes' spared
  obtain rfl := takesAlike first second
  exact ⟨b₁, first, second, related₁⟩

theorem nameStopsSlash {chained : Bool} (h : ReadsName file chained n c c') (m : Mode) : c.Stops ["/"] m := by
  obtain ⟨k, c₁, next, other⟩ := nameKind h m
  exact stopsOf next fun o _ => other o

def Phrase.Faces (w : Passage) (m : Mode) (c : Cursor) : Phrase → Prop
  | .primary _ | .fragment _ | .element _ | .attributeValue _ | .child _ => True
  | .arguments _ => ∃ c₁, c.Takes m ")" c₁ ∧ w.spares (.token c c₁)
  | .children _ => ∀ b, w.rel c b → ∃ b₁ b₂, b.Takes .jsx "<" b₁ ∧ b₁.Takes .jsx "/" b₂
  | _ => w.Sees m c

def NodeAnew (rel : Cursor → Cursor → Prop) (x : Setting) (phrase : Node → Phrase) (m : Mode) (d : Nat) (b : Cursor)
    (n : Node) (c : Cursor) : Prop := ∃ z b', rel c b' ∧ z.Alike n ∧ Reads x (phrase z) m d b b'

def RowAnew (rel : Cursor → Cursor → Prop) (x : Setting) (phrase : List Node → Phrase) (m : Mode) (d : Nat) (b : Cursor)
    (ns : List Node) (c : Cursor) : Prop := ∃ zs b', rel c b' ∧ Node.AllAlike zs ns ∧ Reads x (phrase zs) m d b b'

def Phrase.Anew (rel : Cursor → Cursor → Prop) (x : Setting) (m : Mode) (d : Nat) (b c : Cursor) : Phrase → Prop
  | .suffixes object n => ∀ o, o.Alike object → NodeAnew rel x (.suffixes o) m d b n c
  | .operands level tighter left n => ∀ l, l.Alike left → NodeAnew rel x (.operands level tighter l) m d b n c
  | .primary n => NodeAnew rel x .primary m d b n c
  | .chain n => NodeAnew rel x .chain m d b n c
  | .unary n => NodeAnew rel x .unary m d b n c
  | .ladder ls n => NodeAnew rel x (.ladder ls) m d b n c
  | .fragment n => NodeAnew rel x .fragment m d b n c
  | .element n => NodeAnew rel x .element m d b n c
  | .attributeValue n => NodeAnew rel x .attributeValue m d b n c
  | .attribute n => NodeAnew rel x .attribute m d b n c
  | .child n => NodeAnew rel x .child m d b n c
  | .moreArguments ns => RowAnew rel x .moreArguments m d b ns c
  | .arguments ns => RowAnew rel x .arguments m d b ns c
  | .attributes ns => RowAnew rel x .attributes m d b ns c
  | .children ns => RowAnew rel x .children m d b ns c

section Pieces

variable {y : Setting} {phrase phrase' : Node → Phrase} {rel : Cursor → Cursor → Prop} {left right : String}

theorem NodeAnew.under (h : NodeAnew rel x phrase m d b n c)
    (rule : ∀ {z b'}, Reads x (phrase z) m d b b' → Reads x (phrase' z) m d b b') :
    NodeAnew rel x phrase' m d b n c := by
  obtain ⟨z, b', related, alike, reads⟩ := h
  exact ⟨z, b', related, alike, rule reads⟩

theorem enclosedAnew (opens : c.Takes m left c₁) (closes : c₂.Takes m' right c') (related : w.rel c b)
    (spared : w.spares (.token c c₁)) (sparedLast : w.spares (.token c₂ c'))
    (anew : ∀ {b₁}, w.rel c₁ b₁ → w.Sees m' c₂ → NodeAnew w.rel y phrase m' d b₁ n c₂) :
    ∃ b₁ z b₂ b', w.rel c' b' ∧ z.Alike n ∧
      b.Takes m left b₁ ∧ Reads y (phrase z) m' d b₁ b₂ ∧ b₂.Takes m' right b' := by
  obtain ⟨b₁, opens', related₁⟩ := Passage.takes related opens spared
  obtain ⟨z, b₂, related₂, alike, inside'⟩ := anew related₁ (Passage.takesSees closes sparedLast)
  obtain ⟨b', closes', related'⟩ := Passage.takes related₂ closes sparedLast
  exact ⟨b₁, z, b₂, b', related', alike, opens', inside', closes'⟩

theorem argumentsAnew (opens : c.Takes m "(" c₁) (closes : c₂.Takes m ")" c') (related : w.rel c b)
    (spared : w.spares (.token c c₁)) (sparedLast : w.spares (.token c₂ c'))
    (anew : ∀ {b₁}, w.rel c₁ b₁ → (∃ c₃, c₂.Takes m ")" c₃ ∧ w.spares (.token c₂ c₃)) →
      RowAnew w.rel y .arguments m d b₁ ns c₂) :
    ∃ b₁ zs b₂ b', w.rel c' b' ∧ Node.AllAlike zs ns ∧
      b.Takes m "(" b₁ ∧ Reads y (.arguments zs) m d b₁ b₂ ∧ b₂.Takes m ")" b' := by
  obtain ⟨b₁, opens', related₁⟩ := Passage.takes related opens spared
  obtain ⟨zs, b₂, related₂, alike, inside'⟩ := anew related₁ ⟨c', closes, sparedLast⟩
  obtain ⟨b', closes', related'⟩ := Passage.takes related₂ closes sparedLast
  exact ⟨b₁, zs, b₂, b', related', alike, opens', inside', closes'⟩

theorem tagAnew (less : c.Takes m "<" a) (opens : c.Takes .jsx "<" c₁) (name : SpellsName file true own c₁ c₂ items)
    (attributes : Spells x (.attributes as) .jsx d c₂ c₃ after) (related : w.rel c b)
    (spared : w.spares (.token c c₁)) (sparedName : w.All items)
    (sparedAttributes : w.All after) (sees : w.Sees .jsx c₃)
    (anew : ∀ {b₂}, w.rel c₂ b₂ → RowAnew w.rel y .attributes .jsx d' b₂ as c₃) :
    ∃ b₁ own' b₂ as' b₃, w.rel c₃ b₃ ∧ own'.Alike own ∧ Node.AllAlike as' as ∧ b.Takes m "<" b₁ ∧
      b.Takes .jsx "<" b₁ ∧ ReadsName again true own' b₁ b₂ ∧ Reads y (.attributes as') .jsx d' b₂ b₃ := by
  have named := (attributes.fronts trivial).sees sparedAttributes sees
  obtain ⟨b₁, less', opens', related₁⟩ := carriedBoth related less opens spared
  obtain ⟨own', b₂, related₂, alike, name'⟩ := name.carried again sparedName related₁ named
  obtain ⟨as', b₃, related₃, alikeAttributes, attributes'⟩ := anew related₂
  exact ⟨b₁, own', b₂, as', b₃, related₃, alike, alikeAttributes, less', opens', name', attributes'⟩

theorem closingAnew (closes : c.Takes .jsx "<" c₁) (slash : c₁.Takes .jsx "/" c₂) (related : w.rel c b)
    (spared : w.spares (.token c c₁)) (sparedLast : w.spares (.token c₁ c₂)) :
    ∃ b₁ b₂, w.rel c₂ b₂ ∧ b.Takes .jsx "<" b₁ ∧ b₁.Takes .jsx "/" b₂ := by
  obtain ⟨b₁, closes', related₁⟩ := Passage.takes related closes spared
  obtain ⟨b₂, slash', related₂⟩ := Passage.takes related₁ slash sparedLast
  exact ⟨b₁, b₂, related₂, closes', slash'⟩

theorem closingFaced (closes : c.Takes .jsx "<" c₁) (slash : c₁.Takes .jsx "/" c₂) (spared : w.spares (.token c c₁))
    (sparedLast : w.spares (.token c₁ c₂)) : (Phrase.children ns).Faces w m c := by
  intro b related
  obtain ⟨b₁, b₂, -, closes', slash'⟩ := closingAnew closes slash related spared sparedLast
  exact ⟨b₁, b₂, closes', slash'⟩

end Pieces

theorem Spells.carried (h : Spells x ph m d c c' items) (again : Option String) (shallower : d' ≤ d)
    (spared : w.All items) (related : w.rel c b) (faces : ph.Faces w m c') :
    ph.Anew w.rel ⟨x.config, again⟩ m d' b c' := by
  -- Item by item from cursor to cursor; `Faces` says what a phrase may see behind it, by the front of what comes next.
  induction h generalizing b d' with
  | identifier token =>
      obtain ⟨b', token', related'⟩ := w.token related token rfl (Passage.allCons.mp spared).1
      exact ⟨_, b', related', Node.alikeForms.mpr rfl, .identifier token'⟩
  | literal token value =>
      obtain ⟨b', token', related'⟩ := w.token related token (literalValid value) (Passage.allCons.mp spared).1
      exact ⟨_, b', related', Node.alikeForms.mpr rfl, .literal token' value⟩
  | parenthesized opens room _ closes ih =>
      simp only [Passage.allAppend, Passage.allCons] at spared
      obtain ⟨⟨first, inner⟩, last, -⟩ := spared
      obtain ⟨b₁, z, b₂, b', related', alike, opens', inside', closes'⟩ :=
        enclosedAnew opens closes related first last (ih (Nat.succ_le_succ shallower) inner)
      exact ⟨z, b', related', alike, .parenthesized opens' (Nat.lt_of_le_of_lt shallower room) inside' closes'⟩
  | fragmentPrimary allowed _ ih => exact (ih shallower spared related trivial).under (.fragmentPrimary allowed)
  | elementPrimary allowed _ ih => exact (ih shallower spared related trivial).under (.elementPrimary allowed)
  | noSuffix stop =>
      intro o alike
      exact ⟨o, b, related, alike, .noSuffix (faces.stops related stop)⟩
  | memberSuffix dot own _ ih =>
      intro o alike
      simp only [Passage.allCons] at spared
      obtain ⟨first, second, later⟩ := spared
      obtain ⟨b₁, dot', related₁⟩ := Passage.takes related dot first
      obtain ⟨b₂, own', related₂⟩ := w.token related₁ own rfl second
      obtain ⟨z, b', related', alike', more'⟩ :=
        ih shallower later related₂ faces _ (Node.alikeMember alike (Node.alikeForms.mpr rfl))
      exact ⟨z, b', related', alike', .memberSuffix dot' own' more'⟩
  | computedSuffix opens room _ closes _ ih ihMore =>
      intro o alike
      simp only [Passage.allAppend, Passage.allCons] at spared
      obtain ⟨⟨first, inner⟩, last, later⟩ := spared
      obtain ⟨b₁, y, b₂, b₃, related₃, alikeInside, opens', inside', closes'⟩ :=
        enclosedAnew opens closes related first last (ih (Nat.succ_le_succ shallower) inner)
      obtain ⟨z, b', related', alike', more'⟩ :=
        ihMore shallower later related₃ faces _ (Node.alikeMember alike alikeInside)
      exact ⟨z, b', related', alike',
        .computedSuffix opens' (Nat.lt_of_le_of_lt shallower room) inside' closes' more'⟩
  | callSuffix opens room _ closes _ ih ihMore =>
      intro o alike
      simp only [Passage.allAppend, Passage.allCons] at spared
      obtain ⟨⟨first, inner⟩, last, later⟩ := spared
      obtain ⟨b₁, zs, b₂, b₃, related₃, alikeInside, opens', inside', closes'⟩ :=
        argumentsAnew opens closes related first last (ih (Nat.succ_le_succ shallower) inner)
      obtain ⟨z, b', related', alike', more'⟩ :=
        ihMore shallower later related₃ faces _ (Node.alikeCall alike alikeInside)
      exact ⟨z, b', related', alike', .callSuffix opens' (Nat.lt_of_le_of_lt shallower room) inside' closes' more'⟩
  | chain _ more ih ihMore =>
      obtain ⟨early, later⟩ := Passage.allAppend.mp spared
      obtain ⟨o, b₁, related₁, alike, first'⟩ := ih shallower early related trivial
      obtain ⟨z, b', related', alike', more'⟩ := ihMore shallower later related₁ faces o alike
      exact ⟨z, b', related', alike', .chain first' more'⟩
  | plainUnary stop operand ih =>
      have sees := (operand.fronts trivial).sees spared faces
      exact (ih shallower spared related faces).under (.plainUnary (sees.stops related stop))
  | unary operator known room _ ih =>
      obtain ⟨first, later⟩ := Passage.allCons.mp spared
      obtain ⟨b₁, operator', related₁⟩ := Passage.takes related operator first
      obtain ⟨z, b', related', alike, operand'⟩ := ih (Nat.succ_le_succ shallower) later related₁ faces
      exact ⟨_, b', related', Node.alikeUnary alike,
        .unary operator' known (Nat.lt_of_le_of_lt shallower room) operand'⟩
  | noOperand stop =>
      intro l alike
      exact ⟨l, b, related, alike, .noOperand (faces.stops related stop)⟩
  | @operand _ _ level _ _ _ _ _ _ _ _ _ _ _ operator known _ more ih ihMore =>
      intro l alike
      simp only [Passage.allAppend, Passage.allCons] at spared
      obtain ⟨⟨first, inner⟩, later⟩ := spared
      have sees := (more.fronts trivial).sees later faces
      obtain ⟨b₁, operator', related₁⟩ := Passage.takes related operator first
      obtain ⟨r, b₂, related₂, alikeRight, operand'⟩ := ih shallower inner related₁ sees
      obtain ⟨z, b', related', alike', more'⟩ :=
        ihMore shallower later related₂ faces _ (Node.alikeJoin level.join alike alikeRight)
      exact ⟨z, b', related', alike', .operand operator' known operand' more'⟩
  | bottom _ ih => exact (ih shallower spared related faces).under .bottom
  | level _ more ih ihMore =>
      obtain ⟨early, later⟩ := Passage.allAppend.mp spared
      obtain ⟨l, b₁, related₁, alike, first'⟩ := ih shallower early related ((more.fronts trivial).sees later faces)
      obtain ⟨z, b', related', alike', more'⟩ := ihMore shallower later related₁ faces l alike
      exact ⟨z, b', related', alike', .level first' more'⟩
  | noMoreArguments stop => exact ⟨[], b, related, rfl, .noMoreArguments (faces.stops related stop)⟩
  | moreArguments comma _ more ih ihMore =>
      simp only [Passage.allAppend, Passage.allCons] at spared
      obtain ⟨⟨first, inner⟩, later⟩ := spared
      have sees := (more.fronts trivial).sees later faces
      obtain ⟨b₁, comma', related₁⟩ := Passage.takes related comma first
      obtain ⟨z, b₂, related₂, alike, item'⟩ := ih shallower inner related₁ sees
      obtain ⟨zs, b', related', alikeMore, more'⟩ := ihMore shallower later related₂ faces
      exact ⟨z :: zs, b', related', Node.allAlikeCons alike alikeMore, .moreArguments comma' item' more'⟩
  | noArguments =>
      obtain ⟨c₁, closes, last⟩ := faces
      obtain ⟨b₁, closes', -⟩ := Passage.takes related closes last
      exact ⟨[], b, related, rfl, .noArguments closes'⟩
  | arguments _ more ih ihMore =>
      obtain ⟨early, later⟩ := Passage.allAppend.mp spared
      obtain ⟨c₁, closes, last⟩ := faces
      have sees := Passage.takesSees closes last
      obtain ⟨z, b₁, related₁, alike, first'⟩ := ih shallower early related ((more.fronts trivial).sees later sees)
      obtain ⟨zs, b', related', alikeMore, more'⟩ := ihMore shallower later related₁ sees
      exact ⟨z :: zs, b', related', Node.allAlikeCons alike alikeMore, .arguments first' more'⟩
  | fragment less greater room opens opened _ closes slash closed ih =>
      simp only [Passage.allAppend, Passage.allCons] at spared
      obtain ⟨⟨first, second, inner⟩, third, fourth, last, -⟩ := spared
      obtain ⟨b₁, less', opens', related₁⟩ := carriedBoth related less opens first
      obtain rfl := takesAlike less opens
      obtain ⟨b₂, greater', opened', related₂⟩ := carriedBoth related₁ greater opened second
      obtain ⟨zs, b₃, related₃, alike, inside'⟩ :=
        ih (Nat.succ_le_succ shallower) inner related₂ (closingFaced closes slash third fourth)
      obtain ⟨b₄, b₅, related₅, closes', slash'⟩ := closingAnew closes slash related₃ third fourth
      obtain ⟨b', closed', related'⟩ := Passage.takes related₅ closed last
      exact ⟨_, b', related', Node.alikeFragment (Node.alikeForms.mpr rfl) (Node.alikeForms.mpr rfl) alike,
        .fragment less' greater' (Nat.lt_of_le_of_lt shallower room) opens' opened' inside' closes' slash' closed'⟩
  | selfClosing less _ room opens name attributes slash closed ih =>
      simp only [Passage.allAppend, Passage.allCons] at spared
      obtain ⟨⟨⟨first, named⟩, attributed⟩, second, last, -⟩ := spared
      have sees := Passage.takesSees slash second
      obtain ⟨b₁, own, b₂, zs, b₃, related₃, alikeName, alike, less', opens', name', attributes'⟩ :=
        tagAnew less opens name attributes related first named attributed sees
          fun front => ih (Nat.succ_le_succ shallower) attributed front sees
      obtain ⟨b₄, slash', related₄⟩ := Passage.takes related₃ slash second
      obtain ⟨b', closed', related'⟩ := Passage.takes related₄ closed last
      exact ⟨_, b', related', Node.alikeTag (Node.alikeOpening alikeName alike),
        .selfClosing less' (nameStopsSlash name' _) (Nat.lt_of_le_of_lt shallower room) opens' name' attributes' slash'
          closed'⟩
  | element less _ room opens name attributes opened _ closes slash closingName closed same ih ihInside =>
      simp only [Passage.allAppend, Passage.allCons] at spared
      obtain ⟨⟨⟨⟨⟨first, named⟩, attributed⟩, second, inner⟩, third, fourth, closingNamed⟩, last, -⟩ := spared
      have sees := Passage.takesSees opened second
      obtain ⟨b₁, own, b₂, as, b₃, related₃, alikeName, alikeAttributes, less', opens', name', attributes'⟩ :=
        tagAnew less opens name attributes related first named attributed sees
          fun front => ih (Nat.succ_le_succ shallower) attributed front sees
      obtain ⟨b₄, opened', related₄⟩ := Passage.takes related₃ opened second
      obtain ⟨zs, b₅, related₅, alike, inside'⟩ :=
        ihInside (Nat.succ_le_succ shallower) inner related₄ (closingFaced closes slash third fourth)
      obtain ⟨b₆, b₇, related₇, closes', slash'⟩ := closingAnew closes slash related₅ third fourth
      obtain ⟨closing, b₈, related₈, alikeClosing, closingName'⟩ :=
        closingName.carried again closingNamed related₇ (Passage.takesSees closed last)
      obtain ⟨b', closed', related'⟩ := Passage.takes related₈ closed last
      have same' := same
      rw [← Node.Alike.sameName alikeName alikeClosing] at same'
      exact ⟨_, b', related', Node.alikeElement (Node.alikeOpening alikeName alikeAttributes)
        (Node.alikeClosing alikeClosing) alike, .element less' (nameStopsSlash name' _)
          (Nat.lt_of_le_of_lt shallower room) opens' name' attributes' opened' inside' closes' slash' closingName'
          closed' same'⟩
  | stringValue token =>
      obtain ⟨b', token', related'⟩ := w.token related token rfl (Passage.allCons.mp spared).1
      exact ⟨_, b', related', Node.alikeForms.mpr rfl, .stringValue token'⟩
  | containerValue opens _ closes ih =>
      simp only [Passage.allAppend, Passage.allCons] at spared
      obtain ⟨⟨first, inner⟩, last, -⟩ := spared
      obtain ⟨b₁, z, b₂, b', related', alike, opens', inside', closes'⟩ :=
        enclosedAnew opens closes related first last (ih shallower inner)
      exact ⟨_, b', related', Node.alikeContainer alike, .containerValue opens' inside' closes'⟩
  | fragmentValue _ ih => exact (ih shallower spared related trivial).under .fragmentValue
  | elementValue _ ih => exact (ih shallower spared related trivial).under .elementValue
  | spreadAttribute opens dots _ closes ih =>
      simp only [Passage.allAppend, Passage.allCons] at spared
      obtain ⟨⟨first, second, inner⟩, last, -⟩ := spared
      obtain ⟨b₁, opens', related₁⟩ := Passage.takes related opens first
      obtain ⟨b₂, z, b₃, b', related', alike, dots', inside', closes'⟩ :=
        enclosedAnew dots closes related₁ second last (ih shallower inner)
      exact ⟨_, b', related', Node.alikeSpreadAttribute alike, .spreadAttribute opens' dots' inside' closes'⟩
  | plainAttribute name stop =>
      obtain ⟨own, b', related', alike, name'⟩ := name.carried again spared related faces
      exact ⟨_, b', related', Node.alikePlainAttribute alike, .plainAttribute name' (faces.stops related' stop)⟩
  | valuedAttribute name equals _ ih =>
      simp only [Passage.allAppend, Passage.allCons] at spared
      obtain ⟨named, second, inner⟩ := spared
      obtain ⟨own, b₁, related₁, alike, name'⟩ :=
        name.carried again named related (Passage.takesSees equals second)
      obtain ⟨b₂, equals', related₂⟩ := Passage.takes related₁ equals second
      obtain ⟨z, b', related', alikeValue, assigned'⟩ := ih shallower inner related₂ trivial
      exact ⟨_, b', related', Node.alikeValuedAttribute alike alikeValue, .valuedAttribute name' equals' assigned'⟩
  | noAttribute stop nameless =>
      have nameless' : ∀ s b', b.next? .jsx ≠ some (.jsxIdentifier s, b') := by
        intro s b' next
        obtain ⟨c', there⟩ := faces.only related next
        exact nameless s c' there
      exact ⟨[], b, related, rfl, .noAttribute (faces.stops related stop) nameless'⟩
  | attributes _ more ih ihMore =>
      obtain ⟨early, later⟩ := Passage.allAppend.mp spared
      obtain ⟨z, b₁, related₁, alike, first'⟩ := ih shallower early related ((more.fronts trivial).sees later faces)
      obtain ⟨zs, b', related', alikeMore, more'⟩ := ihMore shallower later related₁ faces
      exact ⟨z :: zs, b', related', Node.allAlikeCons alike alikeMore, .attributes first' more'⟩
  | text run =>
      obtain ⟨b', run', related'⟩ := w.text related run (Passage.allCons.mp spared).1
      exact ⟨_, b', related', Node.alikeForms.mpr rfl, .text run'⟩
  | fragmentChild textless _ ih =>
      obtain ⟨first, later⟩ := Passage.allCons.mp spared
      exact (ih shallower later related trivial).under (.fragmentChild (w.bare related textless first))
  | elementChild textless _ ih =>
      obtain ⟨first, later⟩ := Passage.allCons.mp spared
      exact (ih shallower later related trivial).under (.elementChild (w.bare related textless first))
  | emptyChild textless opens closes =>
      simp only [Passage.allCons] at spared
      obtain ⟨none, first, last, -⟩ := spared
      obtain ⟨b₁, opens', related₁⟩ := Passage.takes related opens first
      obtain ⟨b', closes', related'⟩ := Passage.takes related₁ closes last
      exact ⟨_, b', related', Node.alikeContainer (Node.alikeForms.mpr rfl),
        .emptyChild (w.bare related textless none) opens' closes'⟩
  | containerChild textless opens _ closes ih =>
      simp only [Passage.allAppend, Passage.allCons] at spared
      obtain ⟨⟨none, first, inner⟩, last, -⟩ := spared
      obtain ⟨b₁, z, b₂, b', related', alike, opens', inside', closes'⟩ :=
        enclosedAnew opens closes related first last (ih shallower inner)
      exact ⟨_, b', related', Node.alikeContainer alike,
        .containerChild (w.bare related textless none) opens' inside' closes'⟩
  | spreadChild textless opens dots _ closes ih =>
      simp only [Passage.allAppend, Passage.allCons] at spared
      obtain ⟨⟨none, first, second, inner⟩, last, -⟩ := spared
      obtain ⟨b₁, opens', related₁⟩ := Passage.takes related opens first
      obtain ⟨b₂, z, b₃, b', related', alike, dots', inside', closes'⟩ :=
        enclosedAnew dots closes related₁ second last (ih shallower inner)
      exact ⟨_, b', related', Node.alikeSpreadChild alike,
        .spreadChild (w.bare related textless none) opens' dots' inside' closes'⟩
  | noChild textless _ _ =>
      obtain ⟨b₁, b₂, less', slash'⟩ := faces b related
      exact ⟨[], b, related, rfl, .noChild (w.bare related textless (Passage.allCons.mp spared).1) less' slash'⟩
  | children _ more ih ihMore =>
      obtain ⟨early, later⟩ := Passage.allAppend.mp spared
      obtain ⟨z, b₁, related₁, alike, first'⟩ := ih shallower early related trivial
      obtain ⟨zs, b', related', alikeMore, more'⟩ := ihMore shallower later related₁ faces
      exact ⟨z :: zs, b', related', Node.allAlikeCons alike alikeMore, .children first' more'⟩

end Grammar

end JsxTree
