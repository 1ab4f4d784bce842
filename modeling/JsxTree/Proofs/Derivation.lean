import JsxTree.Grammar
import JsxTree.Proofs.Outcome

/-! The grammar as a relation: which nodes can be read from one cursor to another. Every choice of
the parser is a premise about the token at a cursor, and a list is read to its end, so a node and
the cursor behind it are settled by the cursor in front. -/
namespace JsxTree

abbrev Cursor.Takes (c : Cursor) (m : Mode) (o : String) (c' : Cursor) : Prop :=
  c.next? m = some (.punctuator o, c')

def Node.spanUpTo (n : Node) (c : Cursor) (file : Option String) : Span := ⟨n.span.start, c.position, file⟩

namespace Grammar

open JsxTree.Parser (Setting)

inductive ReadsMembers (file : Option String) : Node → Cursor → Node → Cursor → Prop where
  | stop {object c} (stop : c.Stops ["."] .jsx) : ReadsMembers file object c object c
  | step {object c c₁ c₂ s n c'} (dot : c.Takes .jsx "." c₁)
      (own : c₁.next? .jsx = some (.jsxIdentifier s, c₂))
      (more : ReadsMembers file ⟨.jsxMember object ⟨.jsxIdentifier s, c₁.spanTo c₂ file⟩,
        object.spanUpTo c₂ file⟩ c₂ n c') : ReadsMembers file object c n c'

inductive ReadsName (file : Option String) : Bool → Node → Cursor → Cursor → Prop where
  | simple {s c c'} (own : c.next? .jsx = some (.jsxIdentifier s, c')) (stop : c'.Stops [":"] .jsx) :
      ReadsName file false ⟨.jsxIdentifier s, c.spanTo c' file⟩ c c'
  | chain {s c c₁ n c'} (own : c.next? .jsx = some (.jsxIdentifier s, c₁)) (stop : c₁.Stops [":"] .jsx)
      (members : ReadsMembers file ⟨.jsxIdentifier s, c.spanTo c₁ file⟩ c₁ n c') :
      ReadsName file true n c c'
  | namespaced {chained s t c c₁ c₂ c'} (space : c.next? .jsx = some (.jsxIdentifier s, c₁))
      (colon : c₁.Takes .jsx ":" c₂) (own : c₂.next? .jsx = some (.jsxIdentifier t, c')) :
      ReadsName file chained ⟨.namespacedName ⟨.jsxIdentifier s, c.spanTo c₁ file⟩
        ⟨.jsxIdentifier t, c₂.spanTo c' file⟩, c.spanTo c' file⟩ c c'

/-- What can be read, with the nodes it comes to. Of `suffixes` and `operands` the first node is
what stands to the left already. -/
inductive Phrase where
  | primary (n : Node)
  | suffixes (object n : Node)
  | chain (n : Node)
  | unary (n : Node)
  | operands (level : Level) (tighter : List Level) (left n : Node)
  | ladder (levels : List Level) (n : Node)
  | moreArguments (ns : List Node)
  | arguments (ns : List Node)
  | fragment (n : Node)
  | element (n : Node)
  | attributeValue (n : Node)
  | attribute (n : Node)
  | attributes (ns : List Node)
  | child (n : Node)
  | children (ns : List Node)

abbrev Phrase.expression (n : Node) : Phrase := .ladder levels n

inductive Reads (x : Setting) : Phrase → Mode → Nat → Cursor → Cursor → Prop where
  | identifier {m d s c c'} (token : c.next? m = some (.identifier s, c')) :
      Reads x (.primary ⟨.identifier s, c.spanTo c' x.file⟩) m d c c'
  | literal {m d k v c c'} (token : c.next? m = some (k, c')) (value : literalValue? k = some v) :
      Reads x (.primary ⟨.literal v k.text, c.spanTo c' x.file⟩) m d c c'
  | parenthesized {m d n c c₁ c₂ c'} (opens : c.Takes m "(" c₁) (room : d < x.config.maxDepth)
      (inside : Reads x (.expression n) m (d + 1) c₁ c₂) (closes : c₂.Takes m ")" c') :
      Reads x (.primary n) m d c c'
  | fragmentPrimary {m d n c c'} (allowed : x.config.jsx = true) (markup : Reads x (.fragment n) m d c c') :
      Reads x (.primary n) m d c c'
  | elementPrimary {m d n c c'} (allowed : x.config.jsx = true) (markup : Reads x (.element n) m d c c') :
      Reads x (.primary n) m d c c'
  | noSuffix {m d object c} (stop : c.Stops [".", "[", "("] m) : Reads x (.suffixes object object) m d c c
  | memberSuffix {m d object n s c c₁ c₂ c'} (dot : c.Takes m "." c₁)
      (own : c₁.next? m = some (.identifier s, c₂))
      (more : Reads x (.suffixes ⟨.member object ⟨.identifier s, c₁.spanTo c₂ x.file⟩ false,
        object.spanUpTo c₂ x.file⟩ n) m d c₂ c') : Reads x (.suffixes object n) m d c c'
  | computedSuffix {m d object property n c c₁ c₂ c₃ c'} (opens : c.Takes m "[" c₁)
      (room : d < x.config.maxDepth) (inside : Reads x (.expression property) m (d + 1) c₁ c₂)
      (closes : c₂.Takes m "]" c₃)
      (more : Reads x (.suffixes ⟨.member object property true, object.spanUpTo c₃ x.file⟩ n) m d c₃ c') :
      Reads x (.suffixes object n) m d c c'
  | callSuffix {m d object ns n c c₁ c₂ c₃ c'} (opens : c.Takes m "(" c₁) (room : d < x.config.maxDepth)
      (inside : Reads x (.arguments ns) m (d + 1) c₁ c₂) (closes : c₂.Takes m ")" c₃)
      (more : Reads x (.suffixes ⟨.call object ns, object.spanUpTo c₃ x.file⟩ n) m d c₃ c') :
      Reads x (.suffixes object n) m d c c'
  | chain {m d object n c c₁ c'} (first : Reads x (.primary object) m d c c₁)
      (more : Reads x (.suffixes object n) m d c₁ c') : Reads x (.chain n) m d c c'
  | plainUnary {m d n c c'} (stop : c.Stops prefixOperators m) (operand : Reads x (.chain n) m d c c') :
      Reads x (.unary n) m d c c'
  | unary {m d o n c c₁ c'} (operator : c.Takes m o c₁) (known : o ∈ prefixOperators)
      (room : d < x.config.maxDepth) (operand : Reads x (.unary n) m (d + 1) c₁ c') :
      Reads x (.unary ⟨.unary o true n, c.spanTo c' x.file⟩) m d c c'
  | noOperand {m d level tighter left c} (stop : c.Stops level.operators m) :
      Reads x (.operands level tighter left left) m d c c
  | operand {m d level tighter left right o n c c₁ c₂ c'} (operator : c.Takes m o c₁)
      (known : o ∈ level.operators) (operand : Reads x (.ladder tighter right) m d c₁ c₂)
      (more : Reads x (.operands level tighter ⟨level.join.form o left right, left.spanUpTo c₂ x.file⟩ n)
        m d c₂ c') : Reads x (.operands level tighter left n) m d c c'
  | bottom {m d n c c'} (operand : Reads x (.unary n) m d c c') : Reads x (.ladder [] n) m d c c'
  | level {m d level tighter left n c c₁ c'} (first : Reads x (.ladder tighter left) m d c c₁)
      (more : Reads x (.operands level tighter left n) m d c₁ c') :
      Reads x (.ladder (level :: tighter) n) m d c c'
  | noMoreArguments {m d c} (stop : c.Stops [","] m) : Reads x (.moreArguments []) m d c c
  | moreArguments {m d n ns c c₁ c₂ c'} (comma : c.Takes m "," c₁)
      (item : Reads x (.expression n) m d c₁ c₂) (more : Reads x (.moreArguments ns) m d c₂ c') :
      Reads x (.moreArguments (n :: ns)) m d c c'
  | noArguments {m d c c'} (closes : c.Takes m ")" c') : Reads x (.arguments []) m d c c
  | arguments {m d n ns c c₁ c'} (first : Reads x (.expression n) m d c c₁)
      (more : Reads x (.moreArguments ns) m d c₁ c') : Reads x (.arguments (n :: ns)) m d c c'
  | fragment {m d ns c b b' c₁ c₂ c₃ c₄ c₅ c'} (less : c.Takes m "<" b) (greater : b.Takes m ">" b')
      (room : d < x.config.maxDepth) (opens : c.Takes .jsx "<" c₁) (opened : c₁.Takes .jsx ">" c₂)
      (inside : Reads x (.children ns) .jsx (d + 1) c₂ c₃) (closes : c₃.Takes .jsx "<" c₄)
      (slash : c₄.Takes .jsx "/" c₅) (closed : c₅.Takes .jsx ">" c') :
      Reads x (.fragment ⟨.fragment ⟨.openingFragment, c.spanTo c₂ x.file⟩
        ⟨.closingFragment, c₃.spanTo c' x.file⟩ (presentList ns), c.spanTo c' x.file⟩) m d c c'
  | selfClosing {m d own as c b c₁ c₂ c₃ c₄ c'} (less : c.Takes m "<" b) (notClosing : b.Stops ["/"] m)
      (room : d < x.config.maxDepth) (opens : c.Takes .jsx "<" c₁) (name : ReadsName x.file true own c₁ c₂)
      (attributes : Reads x (.attributes as) .jsx (d + 1) c₂ c₃) (slash : c₃.Takes .jsx "/" c₄)
      (closed : c₄.Takes .jsx ">" c') :
      Reads x (.element ⟨.element ⟨.openingElement own (presentList as) true, c.spanTo c' x.file⟩
        none none, c.spanTo c' x.file⟩) m d c c'
  | element {m d own as ns closing c b c₁ c₂ c₃ c₄ c₅ c₆ c₇ c₈ c'} (less : c.Takes m "<" b)
      (notClosing : b.Stops ["/"] m) (room : d < x.config.maxDepth) (opens : c.Takes .jsx "<" c₁)
      (name : ReadsName x.file true own c₁ c₂) (attributes : Reads x (.attributes as) .jsx (d + 1) c₂ c₃)
      (opened : c₃.Takes .jsx ">" c₄) (inside : Reads x (.children ns) .jsx (d + 1) c₄ c₅)
      (closes : c₅.Takes .jsx "<" c₆) (slash : c₆.Takes .jsx "/" c₇)
      (closingName : ReadsName x.file true closing c₇ c₈) (closed : c₈.Takes .jsx ">" c')
      (same : own.sameName closing = true) :
      Reads x (.element ⟨.element ⟨.openingElement own (presentList as) false, c.spanTo c₄ x.file⟩
        (some ⟨.closingElement closing, c₅.spanTo c' x.file⟩) (presentList ns), c.spanTo c' x.file⟩) m d c c'
  | stringValue {d raw c c'} (token : c.next? .jsx = some (.stringLiteral raw, c')) :
      Reads x (.attributeValue ⟨.literal (.string (Literal.unquote raw)) raw, c.spanTo c' x.file⟩) .jsx d c c'
  | containerValue {d n c c₁ c₂ c'} (opens : c.Takes .jsx "\x7b" c₁)
      (inside : Reads x (.expression n) .script d c₁ c₂) (closes : c₂.Takes .script "\x7d" c') :
      Reads x (.attributeValue ⟨.container n, c.spanTo c' x.file⟩) .jsx d c c'
  | fragmentValue {d n c c'} (markup : Reads x (.fragment n) .jsx d c c') :
      Reads x (.attributeValue n) .jsx d c c'
  | elementValue {d n c c'} (markup : Reads x (.element n) .jsx d c c') :
      Reads x (.attributeValue n) .jsx d c c'
  | spreadAttribute {d n c c₁ c₂ c₃ c'} (opens : c.Takes .jsx "\x7b" c₁) (dots : c₁.Takes .script "..." c₂)
      (inside : Reads x (.expression n) .script d c₂ c₃) (closes : c₃.Takes .script "\x7d" c') :
      Reads x (.attribute ⟨.spreadAttribute n, c.spanTo c' x.file⟩) .jsx d c c'
  | plainAttribute {d own c c'} (name : ReadsName x.file false own c c') (stop : c'.Stops ["="] .jsx) :
      Reads x (.attribute ⟨.jsxAttribute own none, own.spanUpTo c' x.file⟩) .jsx d c c'
  | valuedAttribute {d own value c c₁ c₂ c'} (name : ReadsName x.file false own c c₁)
      (equals : c₁.Takes .jsx "=" c₂) (assigned : Reads x (.attributeValue value) .jsx d c₂ c') :
      Reads x (.attribute ⟨.jsxAttribute own (some value), own.spanUpTo c' x.file⟩) .jsx d c c'
  | noAttribute {d c} (stop : c.Stops ["\x7b"] .jsx) (nameless : ∀ s c', c.next? .jsx ≠ some (.jsxIdentifier s, c')) :
      Reads x (.attributes []) .jsx d c c
  | attributes {d n ns c c₁ c'} (first : Reads x (.attribute n) .jsx d c c₁)
      (more : Reads x (.attributes ns) .jsx d c₁ c') : Reads x (.attributes (n :: ns)) .jsx d c c'
  | text {d raw c c'} (run : c.text? = some (raw, c')) :
      Reads x (.child ⟨.jsxText raw raw, c.position, c'.position, x.file⟩) .jsx d c c'
  | fragmentChild {d n c c'} (textless : c.text? = none) (markup : Reads x (.fragment n) .jsx d c c') :
      Reads x (.child n) .jsx d c c'
  | elementChild {d n c c'} (textless : c.text? = none) (markup : Reads x (.element n) .jsx d c c') :
      Reads x (.child n) .jsx d c c'
  | emptyChild {d c c₁ c'} (textless : c.text? = none) (opens : c.Takes .jsx "\x7b" c₁)
      (closes : c₁.Takes .script "\x7d" c') :
      Reads x (.child ⟨.container ⟨.emptyExpression, c₁.position, c₁.position, x.file⟩,
        c.spanTo c' x.file⟩) .jsx d c c'
  | containerChild {d n c c₁ c₂ c'} (textless : c.text? = none) (opens : c.Takes .jsx "\x7b" c₁)
      (inside : Reads x (.expression n) .script d c₁ c₂) (closes : c₂.Takes .script "\x7d" c') :
      Reads x (.child ⟨.container n, c.spanTo c' x.file⟩) .jsx d c c'
  | spreadChild {d n c c₁ c₂ c₃ c'} (textless : c.text? = none) (opens : c.Takes .jsx "\x7b" c₁)
      (dots : c₁.Takes .script "..." c₂) (inside : Reads x (.expression n) .script d c₂ c₃)
      (closes : c₃.Takes .script "\x7d" c') :
      Reads x (.child ⟨.spreadChild n, c.spanTo c' x.file⟩) .jsx d c c'
  | noChild {d c c₁ c₂} (textless : c.text? = none) (closes : c.Takes .jsx "<" c₁)
      (slash : c₁.Takes .jsx "/" c₂) : Reads x (.children []) .jsx d c c
  | children {d n ns c c₁ c'} (first : Reads x (.child n) .jsx d c c₁)
      (more : Reads x (.children ns) .jsx d c₁ c') : Reads x (.children (n :: ns)) .jsx d c c'

end Grammar

end JsxTree
