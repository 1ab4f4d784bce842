import JsxTree.Proofs.Completeness

/-! The grammar once more, with what is consumed. Beside the nodes, a reading comes to the tokens and runs of text that it
consumes one after another, and to the places where a run of text may stand and none does. -/
namespace JsxTree

/-- What is consumed between two cursors; the trivia in front of a token is not a part of it. Or a cursor at which a run
of text is looked for in vain. -/
inductive Item where
  | token (front back : Cursor)
  | text (front back : Cursor)
  | bare (here : Cursor)

def Strings : Cursor → List Item → Cursor → Prop
  | c, [], c' => c = c'
  | c, .token front back :: items, c' => c = front ∧ front.skip.Advances back ∧ Strings back items c'
  | c, .text front back :: items, c' => c = front ∧ front.Advances back ∧ Strings back items c'
  | c, .bare here :: items, c' => c = here ∧ Strings here items c'

theorem stringsAppend {a b c : Cursor} {items more : List Item} (first : Strings a items b) (rest : Strings b more c) :
    Strings a (items ++ more) c := by
  induction items generalizing a with
  | nil =>
      cases first
      exact rest
  | cons item items ih =>
      cases item with
      | token | text => exact ⟨first.1, first.2.1, ih first.2.2⟩
      | bare => exact ⟨first.1, ih first.2⟩

theorem stringsSplit {a c : Cursor} {items more : List Item} (h : Strings a (items ++ more) c) :
    ∃ b, Strings a items b ∧ Strings b more c := by
  induction items generalizing a with
  | nil => exact ⟨a, rfl, h⟩
  | cons item items ih =>
      cases item with
      | token | text =>
          obtain ⟨b, first, rest⟩ := ih h.2.2
          exact ⟨b, ⟨h.1, h.2.1, first⟩, rest⟩
      | bare =>
          obtain ⟨b, first, rest⟩ := ih h.2
          exact ⟨b, ⟨h.1, first⟩, rest⟩

theorem Strings.reaches {c c' : Cursor} {items : List Item} (h : Strings c items c') : c.Reaches c' := by
  induction items generalizing c with
  | nil =>
      cases h
      exact Cursor.reachesRefl _
  | cons item items ih =>
      cases item with
      | token =>
          obtain ⟨rfl, advances, more⟩ := h
          exact (Cursor.reachesSkip _).trans (advances.reaches.trans (ih more))
      | text =>
          obtain ⟨rfl, advances, more⟩ := h
          exact advances.reaches.trans (ih more)
      | bare =>
          obtain ⟨rfl, more⟩ := h
          exact ih more

def Item.last : Item → Cursor
  | .token _ back | .text _ back | .bare back => back

def Item.first : Item → Cursor
  | .token front _ | .text front _ | .bare front => front

theorem Strings.within {c c' : Cursor} {items : List Item} (h : Strings c items c') :
    ∀ item ∈ items, c.Reaches item.first ∧ item.last.Reaches c' := by
  intro item inside
  obtain ⟨before, after, rfl⟩ := List.append_of_mem inside
  obtain ⟨b, first, rest⟩ := stringsSplit h
  cases item with
  | token | text =>
      obtain ⟨rfl, -, more⟩ := rest
      exact ⟨first.reaches, more.reaches⟩
  | bare =>
      obtain ⟨rfl, more⟩ := rest
      exact ⟨first.reaches, more.reaches⟩

namespace Grammar

open Cursor JsxTree.Parser

inductive SpellsMembers (file : Option String) : Node → Cursor → Node → Cursor → List Item → Prop where
  | stop {object c} (stop : c.Stops ["."] .jsx) : SpellsMembers file object c object c []
  | step {object c c₁ c₂ s n c' items} (dot : c.Takes .jsx "." c₁)
      (own : c₁.next? .jsx = some (.jsxIdentifier s, c₂))
      (more : SpellsMembers file ⟨.jsxMember object ⟨.jsxIdentifier s, c₁.spanTo c₂ file⟩,
        object.spanUpTo c₂ file⟩ c₂ n c' items) :
      SpellsMembers file object c n c' (.token c c₁ :: .token c₁ c₂ :: items)

inductive SpellsName (file : Option String) : Bool → Node → Cursor → Cursor → List Item → Prop where
  | simple {s c c'} (own : c.next? .jsx = some (.jsxIdentifier s, c')) (stop : c'.Stops [":"] .jsx) :
      SpellsName file false ⟨.jsxIdentifier s, c.spanTo c' file⟩ c c' [.token c c']
  | chain {s c c₁ n c' items} (own : c.next? .jsx = some (.jsxIdentifier s, c₁)) (stop : c₁.Stops [":"] .jsx)
      (members : SpellsMembers file ⟨.jsxIdentifier s, c.spanTo c₁ file⟩ c₁ n c' items) :
      SpellsName file true n c c' (.token c c₁ :: items)
  | namespaced {chained s t c c₁ c₂ c'} (space : c.next? .jsx = some (.jsxIdentifier s, c₁))
      (colon : c₁.Takes .jsx ":" c₂) (own : c₂.next? .jsx = some (.jsxIdentifier t, c')) :
      SpellsName file chained ⟨.namespacedName ⟨.jsxIdentifier s, c.spanTo c₁ file⟩
        ⟨.jsxIdentifier t, c₂.spanTo c' file⟩, c.spanTo c' file⟩ c c' [.token c c₁, .token c₁ c₂, .token c₂ c']

/-- What can be read, as `Reads` has it, and what is consumed for it. -/
inductive Spells (x : Setting) : Phrase → Mode → Nat → Cursor → Cursor → List Item → Prop where
  | identifier {m d s c c'} (token : c.next? m = some (.identifier s, c')) :
      Spells x (.primary ⟨.identifier s, c.spanTo c' x.file⟩) m d c c' [.token c c']
  | literal {m d k v c c'} (token : c.next? m = some (k, c')) (value : literalValue? k = some v) :
      Spells x (.primary ⟨.literal v k.text, c.spanTo c' x.file⟩) m d c c' [.token c c']
  | parenthesized {m d n c c₁ c₂ c' items} (opens : c.Takes m "(" c₁) (room : d < x.config.maxDepth)
      (inside : Spells x (.expression n) m (d + 1) c₁ c₂ items) (closes : c₂.Takes m ")" c') :
      Spells x (.primary n) m d c c' (.token c c₁ :: items ++ [.token c₂ c'])
  | fragmentPrimary {m d n c c' items} (allowed : x.config.jsx = true) (markup : Spells x (.fragment n) m d c c' items) :
      Spells x (.primary n) m d c c' items
  | elementPrimary {m d n c c' items} (allowed : x.config.jsx = true) (markup : Spells x (.element n) m d c c' items) :
      Spells x (.primary n) m d c c' items
  | noSuffix {m d object c} (stop : c.Stops [".", "[", "("] m) : Spells x (.suffixes object object) m d c c []
  | memberSuffix {m d object n s c c₁ c₂ c' items} (dot : c.Takes m "." c₁)
      (own : c₁.next? m = some (.identifier s, c₂))
      (more : Spells x (.suffixes ⟨.member object ⟨.identifier s, c₁.spanTo c₂ x.file⟩ false,
        object.spanUpTo c₂ x.file⟩ n) m d c₂ c' items) :
      Spells x (.suffixes object n) m d c c' (.token c c₁ :: .token c₁ c₂ :: items)
  | computedSuffix {m d object property n c c₁ c₂ c₃ c' items after} (opens : c.Takes m "[" c₁)
      (room : d < x.config.maxDepth) (inside : Spells x (.expression property) m (d + 1) c₁ c₂ items)
      (closes : c₂.Takes m "]" c₃)
      (more : Spells x (.suffixes ⟨.member object property true, object.spanUpTo c₃ x.file⟩ n) m d c₃ c' after) :
      Spells x (.suffixes object n) m d c c' (.token c c₁ :: items ++ .token c₂ c₃ :: after)
  | callSuffix {m d object ns n c c₁ c₂ c₃ c' items after} (opens : c.Takes m "(" c₁) (room : d < x.config.maxDepth)
      (inside : Spells x (.arguments ns) m (d + 1) c₁ c₂ items) (closes : c₂.Takes m ")" c₃)
      (more : Spells x (.suffixes ⟨.call object ns, object.spanUpTo c₃ x.file⟩ n) m d c₃ c' after) :
      Spells x (.suffixes object n) m d c c' (.token c c₁ :: items ++ .token c₂ c₃ :: after)
  | chain {m d object n c c₁ c' items after} (first : Spells x (.primary object) m d c c₁ items)
      (more : Spells x (.suffixes object n) m d c₁ c' after) : Spells x (.chain n) m d c c' (items ++ after)
  | plainUnary {m d n c c' items} (stop : c.Stops prefixOperators m) (operand : Spells x (.chain n) m d c c' items) :
      Spells x (.unary n) m d c c' items
  | unary {m d o n c c₁ c' items} (operator : c.Takes m o c₁) (known : o ∈ prefixOperators)
      (room : d < x.config.maxDepth) (operand : Spells x (.unary n) m (d + 1) c₁ c' items) :
      Spells x (.unary ⟨.unary o true n, c.spanTo c' x.file⟩) m d c c' (.token c c₁ :: items)
  | noOperand {m d level tighter left c} (stop : c.Stops level.operators m) :
      Spells x (.operands level tighter left left) m d c c []
  | operand {m d level tighter left right o n c c₁ c₂ c' items after} (operator : c.Takes m o c₁)
      (known : o ∈ level.operators) (operand : Spells x (.ladder tighter right) m d c₁ c₂ items)
      (more : Spells x (.operands level tighter ⟨level.join.form o left right, left.spanUpTo c₂ x.file⟩ n)
        m d c₂ c' after) : Spells x (.operands level tighter left n) m d c c' (.token c c₁ :: items ++ after)
  | bottom {m d n c c' items} (operand : Spells x (.unary n) m d c c' items) : Spells x (.ladder [] n) m d c c' items
  | level {m d level tighter left n c c₁ c' items after} (first : Spells x (.ladder tighter left) m d c c₁ items)
      (more : Spells x (.operands level tighter left n) m d c₁ c' after) :
      Spells x (.ladder (level :: tighter) n) m d c c' (items ++ after)
  | noMoreArguments {m d c} (stop : c.Stops [","] m) : Spells x (.moreArguments []) m d c c []
  | moreArguments {m d n ns c c₁ c₂ c' items after} (comma : c.Takes m "," c₁)
      (item : Spells x (.expression n) m d c₁ c₂ items) (more : Spells x (.moreArguments ns) m d c₂ c' after) :
      Spells x (.moreArguments (n :: ns)) m d c c' (.token c c₁ :: items ++ after)
  | noArguments {m d c c'} (closes : c.Takes m ")" c') : Spells x (.arguments []) m d c c []
  | arguments {m d n ns c c₁ c' items after} (first : Spells x (.expression n) m d c c₁ items)
      (more : Spells x (.moreArguments ns) m d c₁ c' after) : Spells x (.arguments (n :: ns)) m d c c' (items ++ after)
  | fragment {m d ns c b b' c₁ c₂ c₃ c₄ c₅ c' items} (less : c.Takes m "<" b) (greater : b.Takes m ">" b')
      (room : d < x.config.maxDepth) (opens : c.Takes .jsx "<" c₁) (opened : c₁.Takes .jsx ">" c₂)
      (inside : Spells x (.children ns) .jsx (d + 1) c₂ c₃ items) (closes : c₃.Takes .jsx "<" c₄)
      (slash : c₄.Takes .jsx "/" c₅) (closed : c₅.Takes .jsx ">" c') :
      Spells x (.fragment ⟨.fragment ⟨.openingFragment, c.spanTo c₂ x.file⟩
        ⟨.closingFragment, c₃.spanTo c' x.file⟩ (presentList ns), c.spanTo c' x.file⟩) m d c c'
        (.token c c₁ :: .token c₁ c₂ :: items ++ [.token c₃ c₄, .token c₄ c₅, .token c₅ c'])
  | selfClosing {m d own as c b c₁ c₂ c₃ c₄ c' named items} (less : c.Takes m "<" b) (notClosing : b.Stops ["/"] m)
      (room : d < x.config.maxDepth) (opens : c.Takes .jsx "<" c₁) (name : SpellsName x.file true own c₁ c₂ named)
      (attributes : Spells x (.attributes as) .jsx (d + 1) c₂ c₃ items) (slash : c₃.Takes .jsx "/" c₄)
      (closed : c₄.Takes .jsx ">" c') :
      Spells x (.element ⟨.element ⟨.openingElement own (presentList as) true, c.spanTo c' x.file⟩
        none none, c.spanTo c' x.file⟩) m d c c' (.token c c₁ :: named ++ items ++ [.token c₃ c₄, .token c₄ c'])
  | element {m d own as ns closing c b c₁ c₂ c₃ c₄ c₅ c₆ c₇ c₈ c' named attributed items closingNamed}
      (less : c.Takes m "<" b) (notClosing : b.Stops ["/"] m) (room : d < x.config.maxDepth)
      (opens : c.Takes .jsx "<" c₁) (name : SpellsName x.file true own c₁ c₂ named)
      (attributes : Spells x (.attributes as) .jsx (d + 1) c₂ c₃ attributed)
      (opened : c₃.Takes .jsx ">" c₄) (inside : Spells x (.children ns) .jsx (d + 1) c₄ c₅ items)
      (closes : c₅.Takes .jsx "<" c₆) (slash : c₆.Takes .jsx "/" c₇)
      (closingName : SpellsName x.file true closing c₇ c₈ closingNamed) (closed : c₈.Takes .jsx ">" c')
      (same : own.sameName closing = true) :
      Spells x (.element ⟨.element ⟨.openingElement own (presentList as) false, c.spanTo c₄ x.file⟩
        (some ⟨.closingElement closing, c₅.spanTo c' x.file⟩) (presentList ns), c.spanTo c' x.file⟩) m d c c'
        (.token c c₁ :: named ++ attributed ++ .token c₃ c₄ :: items ++
          .token c₅ c₆ :: .token c₆ c₇ :: closingNamed ++ [.token c₈ c'])
  | stringValue {d raw c c'} (token : c.next? .jsx = some (.stringLiteral raw, c')) :
      Spells x (.attributeValue ⟨.literal (.string (Literal.unquote raw)) raw, c.spanTo c' x.file⟩) .jsx d c c'
        [.token c c']
  | containerValue {d n c c₁ c₂ c' items} (opens : c.Takes .jsx "\x7b" c₁)
      (inside : Spells x (.expression n) .script d c₁ c₂ items) (closes : c₂.Takes .script "\x7d" c') :
      Spells x (.attributeValue ⟨.container n, c.spanTo c' x.file⟩) .jsx d c c'
        (.token c c₁ :: items ++ [.token c₂ c'])
  | fragmentValue {d n c c' items} (markup : Spells x (.fragment n) .jsx d c c' items) :
      Spells x (.attributeValue n) .jsx d c c' items
  | elementValue {d n c c' items} (markup : Spells x (.element n) .jsx d c c' items) :
      Spells x (.attributeValue n) .jsx d c c' items
  | spreadAttribute {d n c c₁ c₂ c₃ c' items} (opens : c.Takes .jsx "\x7b" c₁) (dots : c₁.Takes .script "..." c₂)
      (inside : Spells x (.expression n) .script d c₂ c₃ items) (closes : c₃.Takes .script "\x7d" c') :
      Spells x (.attribute ⟨.spreadAttribute n, c.spanTo c' x.file⟩) .jsx d c c'
        (.token c c₁ :: .token c₁ c₂ :: items ++ [.token c₃ c'])
  | plainAttribute {d own c c' named} (name : SpellsName x.file false own c c' named) (stop : c'.Stops ["="] .jsx) :
      Spells x (.attribute ⟨.jsxAttribute own none, own.spanUpTo c' x.file⟩) .jsx d c c' named
  | valuedAttribute {d own value c c₁ c₂ c' named items} (name : SpellsName x.file false own c c₁ named)
      (equals : c₁.Takes .jsx "=" c₂) (assigned : Spells x (.attributeValue value) .jsx d c₂ c' items) :
      Spells x (.attribute ⟨.jsxAttribute own (some value), own.spanUpTo c' x.file⟩) .jsx d c c'
        (named ++ .token c₁ c₂ :: items)
  | noAttribute {d c} (stop : c.Stops ["\x7b"] .jsx) (nameless : ∀ s c', c.next? .jsx ≠ some (.jsxIdentifier s, c')) :
      Spells x (.attributes []) .jsx d c c []
  | attributes {d n ns c c₁ c' items after} (first : Spells x (.attribute n) .jsx d c c₁ items)
      (more : Spells x (.attributes ns) .jsx d c₁ c' after) : Spells x (.attributes (n :: ns)) .jsx d c c' (items ++ after)
  | text {d raw c c'} (run : c.text? = some (raw, c')) :
      Spells x (.child ⟨.jsxText raw raw, c.position, c'.position, x.file⟩) .jsx d c c' [.text c c']
  | fragmentChild {d n c c' items} (textless : c.text? = none) (markup : Spells x (.fragment n) .jsx d c c' items) :
      Spells x (.child n) .jsx d c c' (.bare c :: items)
  | elementChild {d n c c' items} (textless : c.text? = none) (markup : Spells x (.element n) .jsx d c c' items) :
      Spells x (.child n) .jsx d c c' (.bare c :: items)
  | emptyChild {d c c₁ c'} (textless : c.text? = none) (opens : c.Takes .jsx "\x7b" c₁)
      (closes : c₁.Takes .script "\x7d" c') :
      Spells x (.child ⟨.container ⟨.emptyExpression, c₁.position, c₁.position, x.file⟩,
        c.spanTo c' x.file⟩) .jsx d c c' [.bare c, .token c c₁, .token c₁ c']
  | containerChild {d n c c₁ c₂ c' items} (textless : c.text? = none) (opens : c.Takes .jsx "\x7b" c₁)
      (inside : Spells x (.expression n) .script d c₁ c₂ items) (closes : c₂.Takes .script "\x7d" c') :
      Spells x (.child ⟨.container n, c.spanTo c' x.file⟩) .jsx d c c'
        (.bare c :: .token c c₁ :: items ++ [.token c₂ c'])
  | spreadChild {d n c c₁ c₂ c₃ c' items} (textless : c.text? = none) (opens : c.Takes .jsx "\x7b" c₁)
      (dots : c₁.Takes .script "..." c₂) (inside : Spells x (.expression n) .script d c₂ c₃ items)
      (closes : c₃.Takes .script "\x7d" c') :
      Spells x (.child ⟨.spreadChild n, c.spanTo c' x.file⟩) .jsx d c c'
        (.bare c :: .token c c₁ :: .token c₁ c₂ :: items ++ [.token c₃ c'])
  | noChild {d c c₁ c₂} (textless : c.text? = none) (closes : c.Takes .jsx "<" c₁)
      (slash : c₁.Takes .jsx "/" c₂) : Spells x (.children []) .jsx d c c [.bare c]
  | children {d n ns c c₁ c' items after} (first : Spells x (.child n) .jsx d c c₁ items)
      (more : Spells x (.children ns) .jsx d c₁ c' after) :
      Spells x (.children (n :: ns)) .jsx d c c' (items ++ after)

section Consumed

variable {x : Setting} {ph : Phrase} {file : Option String} {chained : Bool} {m : Mode} {d : Nat} {c c' c₁ : Cursor}
  {n object : Node} {k : Token.Kind} {items : List Item}

theorem ReadsMembers.spelled (h : ReadsMembers file object c n c') : ∃ items, SpellsMembers file object c n c' items := by
  induction h with
  | stop stop => exact ⟨_, .stop stop⟩
  | step dot own _ ih =>
      obtain ⟨_, more⟩ := ih
      exact ⟨_, .step dot own more⟩

theorem ReadsName.spelled (h : ReadsName file chained n c c') : ∃ items, SpellsName file chained n c c' items := by
  cases h with
  | simple own stop => exact ⟨_, .simple own stop⟩
  | chain own stop members =>
      obtain ⟨_, spelled⟩ := members.spelled
      exact ⟨_, .chain own stop spelled⟩
  | namespaced space colon own => exact ⟨_, .namespaced space colon own⟩

theorem Reads.spelled (h : Reads x ph m d c c') : ∃ items, Spells x ph m d c c' items := by
  induction h with
  | identifier token => exact ⟨_, .identifier token⟩
  | literal token value => exact ⟨_, .literal token value⟩
  | parenthesized opens room _ closes ih =>
      obtain ⟨_, inside⟩ := ih
      exact ⟨_, .parenthesized opens room inside closes⟩
  | fragmentPrimary allowed _ ih =>
      obtain ⟨_, markup⟩ := ih
      exact ⟨_, .fragmentPrimary allowed markup⟩
  | elementPrimary allowed _ ih =>
      obtain ⟨_, markup⟩ := ih
      exact ⟨_, .elementPrimary allowed markup⟩
  | noSuffix stop => exact ⟨_, .noSuffix stop⟩
  | memberSuffix dot own _ ih =>
      obtain ⟨_, more⟩ := ih
      exact ⟨_, .memberSuffix dot own more⟩
  | computedSuffix opens room _ closes _ ih ihMore =>
      obtain ⟨_, inside⟩ := ih
      obtain ⟨_, more⟩ := ihMore
      exact ⟨_, .computedSuffix opens room inside closes more⟩
  | callSuffix opens room _ closes _ ih ihMore =>
      obtain ⟨_, inside⟩ := ih
      obtain ⟨_, more⟩ := ihMore
      exact ⟨_, .callSuffix opens room inside closes more⟩
  | chain _ _ ih ihMore =>
      obtain ⟨_, first⟩ := ih
      obtain ⟨_, more⟩ := ihMore
      exact ⟨_, .chain first more⟩
  | plainUnary stop _ ih =>
      obtain ⟨_, operand⟩ := ih
      exact ⟨_, .plainUnary stop operand⟩
  | unary operator known room _ ih =>
      obtain ⟨_, operand⟩ := ih
      exact ⟨_, .unary operator known room operand⟩
  | noOperand stop => exact ⟨_, .noOperand stop⟩
  | operand operator known _ _ ih ihMore =>
      obtain ⟨_, operand⟩ := ih
      obtain ⟨_, more⟩ := ihMore
      exact ⟨_, .operand operator known operand more⟩
  | bottom _ ih =>
      obtain ⟨_, operand⟩ := ih
      exact ⟨_, .bottom operand⟩
  | level _ _ ih ihMore =>
      obtain ⟨_, first⟩ := ih
      obtain ⟨_, more⟩ := ihMore
      exact ⟨_, .level first more⟩
  | noMoreArguments stop => exact ⟨_, .noMoreArguments stop⟩
  | moreArguments comma _ _ ih ihMore =>
      obtain ⟨_, item⟩ := ih
      obtain ⟨_, more⟩ := ihMore
      exact ⟨_, .moreArguments comma item more⟩
  | noArguments closes => exact ⟨_, .noArguments closes⟩
  | arguments _ _ ih ihMore =>
      obtain ⟨_, first⟩ := ih
      obtain ⟨_, more⟩ := ihMore
      exact ⟨_, .arguments first more⟩
  | fragment less greater room opens opened _ closes slash closed ih =>
      obtain ⟨_, inside⟩ := ih
      exact ⟨_, .fragment less greater room opens opened inside closes slash closed⟩
  | selfClosing less notClosing room opens name _ slash closed ih =>
      obtain ⟨_, named⟩ := name.spelled
      obtain ⟨_, attributes⟩ := ih
      exact ⟨_, .selfClosing less notClosing room opens named attributes slash closed⟩
  | element less notClosing room opens name _ opened _ closes slash closingName closed same ih ihInside =>
      obtain ⟨_, named⟩ := name.spelled
      obtain ⟨_, attributes⟩ := ih
      obtain ⟨_, inside⟩ := ihInside
      obtain ⟨_, closingNamed⟩ := closingName.spelled
      exact ⟨_, .element less notClosing room opens named attributes opened inside closes slash closingNamed closed same⟩
  | stringValue token => exact ⟨_, .stringValue token⟩
  | containerValue opens _ closes ih =>
      obtain ⟨_, inside⟩ := ih
      exact ⟨_, .containerValue opens inside closes⟩
  | fragmentValue _ ih =>
      obtain ⟨_, markup⟩ := ih
      exact ⟨_, .fragmentValue markup⟩
  | elementValue _ ih =>
      obtain ⟨_, markup⟩ := ih
      exact ⟨_, .elementValue markup⟩
  | spreadAttribute opens dots _ closes ih =>
      obtain ⟨_, inside⟩ := ih
      exact ⟨_, .spreadAttribute opens dots inside closes⟩
  | plainAttribute name stop =>
      obtain ⟨_, named⟩ := name.spelled
      exact ⟨_, .plainAttribute named stop⟩
  | valuedAttribute name equals _ ih =>
      obtain ⟨_, named⟩ := name.spelled
      obtain ⟨_, assigned⟩ := ih
      exact ⟨_, .valuedAttribute named equals assigned⟩
  | noAttribute stop nameless => exact ⟨_, .noAttribute stop nameless⟩
  | attributes _ _ ih ihMore =>
      obtain ⟨_, first⟩ := ih
      obtain ⟨_, more⟩ := ihMore
      exact ⟨_, .attributes first more⟩
  | text run => exact ⟨_, .text run⟩
  | fragmentChild textless _ ih =>
      obtain ⟨_, markup⟩ := ih
      exact ⟨_, .fragmentChild textless markup⟩
  | elementChild textless _ ih =>
      obtain ⟨_, markup⟩ := ih
      exact ⟨_, .elementChild textless markup⟩
  | emptyChild textless opens closes => exact ⟨_, .emptyChild textless opens closes⟩
  | containerChild textless opens _ closes ih =>
      obtain ⟨_, inside⟩ := ih
      exact ⟨_, .containerChild textless opens inside closes⟩
  | spreadChild textless opens dots _ closes ih =>
      obtain ⟨_, inside⟩ := ih
      exact ⟨_, .spreadChild textless opens dots inside closes⟩
  | noChild textless closes slash => exact ⟨_, .noChild textless closes slash⟩
  | children _ _ ih ihMore =>
      obtain ⟨_, first⟩ := ih
      obtain ⟨_, more⟩ := ihMore
      exact ⟨_, .children first more⟩

theorem stringsToken (next : c.next? m = some (k, c₁)) (more : Strings c₁ items c') :
    Strings c (.token c c₁ :: items) c' := ⟨rfl, (nextTraces next).1.advances (nextTraces next).2, more⟩

theorem stringsOne (next : c.next? m = some (k, c')) : Strings c [.token c c'] c' := stringsToken next rfl

theorem stringsBare (more : Strings c items c') : Strings c (.bare c :: items) c' := ⟨rfl, more⟩

theorem stringsEnclosed {m' : Mode} {c₂ : Cursor} {k' : Token.Kind} (opens : c.next? m = some (k, c₁))
    (inside : Strings c₁ items c₂) (closes : c₂.next? m' = some (k', c')) :
    Strings c (.token c c₁ :: items ++ [.token c₂ c']) c' :=
  stringsAppend (stringsToken opens inside) (stringsOne closes)

theorem SpellsMembers.strings (h : SpellsMembers file object c n c' items) : Strings c items c' := by
  induction h with
  | stop => exact rfl
  | step dot own _ ih => exact stringsToken dot (stringsToken own ih)

theorem SpellsName.strings (h : SpellsName file chained n c c' items) : Strings c items c' := by
  cases h with
  | simple own => exact stringsOne own
  | chain own _ members => exact stringsToken own members.strings
  | namespaced space colon own => exact stringsToken space (stringsToken colon (stringsOne own))

theorem Spells.strings (h : Spells x ph m d c c' items) : Strings c items c' := by
  induction h with
  | identifier token | literal token | stringValue token => exact stringsOne token
  | parenthesized opens _ _ closes ih | containerValue opens _ closes ih => exact stringsEnclosed opens ih closes
  | fragmentPrimary _ _ ih | elementPrimary _ _ ih | plainUnary _ _ ih | bottom _ ih | fragmentValue _ ih
  | elementValue _ ih => exact ih
  | noSuffix | noOperand | noMoreArguments | noArguments | noAttribute => exact rfl
  | memberSuffix dot own _ ih => exact stringsToken dot (stringsToken own ih)
  | computedSuffix opens _ _ closes _ ih ihMore | callSuffix opens _ _ closes _ ih ihMore =>
      exact stringsAppend (stringsToken opens ih) (stringsToken closes ihMore)
  | chain _ _ ih ihMore | level _ _ ih ihMore | arguments _ _ ih ihMore | attributes _ _ ih ihMore
  | children _ _ ih ihMore => exact stringsAppend ih ihMore
  | unary operator _ _ _ ih => exact stringsToken operator ih
  | operand opens _ _ _ ih ihMore | moreArguments opens _ _ ih ihMore =>
      exact stringsAppend (stringsToken opens ih) ihMore
  | fragment _ _ _ opens opened _ closes slash closed ih =>
      exact stringsAppend (stringsToken opens (stringsToken opened ih))
        (stringsToken closes (stringsToken slash (stringsOne closed)))
  | selfClosing _ _ _ opens name _ slash closed ih =>
      exact stringsAppend (stringsAppend (stringsToken opens name.strings) ih)
        (stringsToken slash (stringsOne closed))
  | element _ _ _ opens name _ opened _ closes slash closingName closed _ ih ihInside =>
      have front := stringsAppend (stringsToken opens name.strings) ih
      have back := stringsAppend (stringsToken closes (stringsToken slash closingName.strings)) (stringsOne closed)
      have whole := stringsAppend (stringsAppend front (stringsToken opened ihInside)) back
      simpa only [List.append_assoc, List.cons_append] using whole
  | spreadAttribute opens dots _ closes ih => exact stringsToken opens (stringsEnclosed dots ih closes)
  | plainAttribute name => exact name.strings
  | valuedAttribute name equals _ ih => exact stringsAppend name.strings (stringsToken equals ih)
  | text run =>
      obtain ⟨traces, nonempty⟩ := textTraces run
      exact ⟨rfl, traces.advances nonempty, rfl⟩
  | fragmentChild _ _ ih | elementChild _ _ ih => exact stringsBare ih
  | emptyChild _ opens closes => exact stringsBare (stringsToken opens (stringsOne closes))
  | containerChild _ opens _ closes ih => exact stringsBare (stringsEnclosed opens ih closes)
  | spreadChild _ opens dots _ closes ih => exact stringsBare (stringsToken opens (stringsEnclosed dots ih closes))
  | noChild => exact stringsBare rfl

end Consumed

end Grammar

end JsxTree
