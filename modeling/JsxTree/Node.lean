import JsxTree.Number.Binary64
import JsxTree.Source.Span

/-! The syntax tree. A `Form` is one node's kind and contents over any type of children; a node is
a form over nodes, with its span. What is computed from a tree bottom up is a `fold`. -/
namespace JsxTree

inductive Value where
  | string (s : String)
  | number (x : Binary64)
  | boolean (b : Bool)
  | null
  deriving DecidableEq, Repr

def Value.equals : Value → Value → Bool
  | string a, string b => a == b
  | number a, number b => a.equals b
  | boolean a, boolean b => a == b
  | null, null => true
  | _, _ => false

inductive Kind where
  | fragment | openingFragment | closingFragment
  | element | openingElement | closingElement
  | jsxIdentifier | namespacedName | jsxMember
  | jsxAttribute | spreadAttribute | container | spreadChild | emptyExpression | jsxText
  | identifier | literal | unary | binary | logical | member | call
  deriving DecidableEq, Repr

namespace Kind

def typeName : Kind → String
  | fragment => "JSXFragment"
  | openingFragment => "JSXOpeningFragment"
  | closingFragment => "JSXClosingFragment"
  | element => "JSXElement"
  | openingElement => "JSXOpeningElement"
  | closingElement => "JSXClosingElement"
  | jsxIdentifier => "JSXIdentifier"
  | namespacedName => "JSXNamespacedName"
  | jsxMember => "JSXMemberExpression"
  | jsxAttribute => "JSXAttribute"
  | spreadAttribute => "JSXSpreadAttribute"
  | container => "JSXExpressionContainer"
  | spreadChild => "JSXSpreadChild"
  | emptyExpression => "JSXEmptyExpression"
  | jsxText => "JSXText"
  | identifier => "Identifier"
  | literal => "Literal"
  | unary => "UnaryExpression"
  | binary => "BinaryExpression"
  | logical => "LogicalExpression"
  | member => "MemberExpression"
  | call => "CallExpression"

def isName : Kind → Bool
  | jsxIdentifier | namespacedName | jsxMember => true
  | _ => false

end Kind

inductive Form (α : Type) where
  | fragment (opening closing : α) (children : Option (List α))
  | openingFragment
  | closingFragment
  | element (opening : α) (closing : Option α) (children : Option (List α))
  | openingElement (name : α) (attributes : Option (List α)) (selfClosing : Bool)
  | closingElement (name : α)
  | jsxIdentifier (name : String)
  | namespacedName (space name : α)
  | jsxMember (object property : α)
  | jsxAttribute (name : α) (value : Option α)
  | spreadAttribute (argument : α)
  | container (expression : α)
  | spreadChild (expression : α)
  | emptyExpression
  | jsxText (value raw : String)
  | identifier (name : String)
  | literal (value : Value) (raw : String)
  | unary (operator : String) (leading : Bool) (argument : α)
  | binary (operator : String) (left right : α)
  | logical (operator : String) (left right : α)
  | member (object property : α) (computed : Bool)
  | call (callee : α) (arguments : List α)

structure Node where
  form : Form Node
  span : Span

instance : Inhabited Node := ⟨⟨.emptyExpression, .emptyAt .origin⟩⟩

inductive Slot (α : Type) where
  | single (x : α)
  | list (xs : List α)
  | absent

namespace Slot

variable {α : Type}

def ofOption : Option α → Slot α
  | some x => single x
  | none => absent

def ofLists : Option (List α) → Slot α
  | some xs => list xs
  | none => absent

def nodes : Slot α → List α
  | single x => [x]
  | list xs => xs
  | absent => []

theorem nodesSingle (x : α) : (single x).nodes = [x] := rfl

theorem nodesList (xs : List α) : (list xs).nodes = xs := rfl

end Slot

namespace Form

variable {α β : Type}

def kind : Form α → Kind
  | fragment _ _ _ => .fragment
  | openingFragment => .openingFragment
  | closingFragment => .closingFragment
  | element _ _ _ => .element
  | openingElement _ _ _ => .openingElement
  | closingElement _ => .closingElement
  | jsxIdentifier _ => .jsxIdentifier
  | namespacedName _ _ => .namespacedName
  | jsxMember _ _ => .jsxMember
  | jsxAttribute _ _ => .jsxAttribute
  | spreadAttribute _ => .spreadAttribute
  | container _ => .container
  | spreadChild _ => .spreadChild
  | emptyExpression => .emptyExpression
  | jsxText _ _ => .jsxText
  | identifier _ => .identifier
  | literal _ _ => .literal
  | unary _ _ _ => .unary
  | binary _ _ _ => .binary
  | logical _ _ _ => .logical
  | member _ _ _ => .member
  | call _ _ => .call

def map (f : α → β) : Form α → Form β
  | fragment opening closing children => fragment (f opening) (f closing) (children.map (List.map f))
  | openingFragment => openingFragment
  | closingFragment => closingFragment
  | element opening closing children =>
      element (f opening) (closing.map f) (children.map (List.map f))
  | openingElement name attributes selfClosing =>
      openingElement (f name) (attributes.map (List.map f)) selfClosing
  | closingElement name => closingElement (f name)
  | jsxIdentifier name => jsxIdentifier name
  | namespacedName space name => namespacedName (f space) (f name)
  | jsxMember object property => jsxMember (f object) (f property)
  | jsxAttribute name value => jsxAttribute (f name) (value.map f)
  | spreadAttribute argument => spreadAttribute (f argument)
  | container expression => container (f expression)
  | spreadChild expression => spreadChild (f expression)
  | emptyExpression => emptyExpression
  | jsxText value raw => jsxText value raw
  | identifier name => identifier name
  | literal value raw => literal value raw
  | unary operator leading argument => unary operator leading (f argument)
  | binary operator left right => binary operator (f left) (f right)
  | logical operator left right => logical operator (f left) (f right)
  | member object property computed => member (f object) (f property) computed
  | call callee arguments => call (f callee) (arguments.map f)

/-- The named slots, in the order of the source. A slot that may be empty is there all the same. -/
def slots : Form α → List (String × Slot α)
  | fragment opening closing children =>
      [("openingFragment", .single opening), ("children", .ofLists children),
        ("closingFragment", .single closing)]
  | element opening closing children =>
      [("openingElement", .single opening), ("children", .ofLists children),
        ("closingElement", .ofOption closing)]
  | openingElement name attributes _ =>
      [("name", .single name), ("attributes", .ofLists attributes)]
  | closingElement name => [("name", .single name)]
  | namespacedName space name => [("namespace", .single space), ("name", .single name)]
  | jsxMember object property | member object property _ =>
      [("object", .single object), ("property", .single property)]
  | jsxAttribute name value => [("name", .single name), ("value", .ofOption value)]
  | spreadAttribute argument | unary _ _ argument => [("argument", .single argument)]
  | container expression | spreadChild expression => [("expression", .single expression)]
  | binary _ left right | logical _ left right => [("left", .single left), ("right", .single right)]
  | call callee arguments => [("callee", .single callee), ("arguments", .list arguments)]
  | openingFragment | closingFragment | jsxIdentifier _ | emptyExpression | jsxText _ _
  | identifier _ | literal _ _ => []

def children (form : Form α) : List α := form.slots.flatMap fun (_, slot) => slot.nodes

def agreeLists (p : α → β → Bool) : Option (List α) → Option (List β) → Bool
  | none, none => true
  | some xs, some ys => xs.length == ys.length && (xs.zip ys).all fun (x, y) => p x y
  | _, _ => false

def agreeOption (p : α → β → Bool) : Option α → Option β → Bool
  | none, none => true
  | some x, some y => p x y
  | _, _ => false

def agrees (p : α → β → Bool) : Form α → Form β → Bool
  | fragment o c cs, fragment o' c' cs' => p o o' && p c c' && agreeLists p cs cs'
  | openingFragment, openingFragment => true
  | closingFragment, closingFragment => true
  | element o c cs, element o' c' cs' => p o o' && agreeOption p c c' && agreeLists p cs cs'
  | openingElement n as s, openingElement n' as' s' => p n n' && agreeLists p as as' && s == s'
  | closingElement n, closingElement n' => p n n'
  | jsxIdentifier n, jsxIdentifier n' => n == n'
  | namespacedName s n, namespacedName s' n' => p s s' && p n n'
  | jsxMember o q, jsxMember o' q' => p o o' && p q q'
  | jsxAttribute n v, jsxAttribute n' v' => p n n' && agreeOption p v v'
  | spreadAttribute a, spreadAttribute a' => p a a'
  | container e, container e' => p e e'
  | spreadChild e, spreadChild e' => p e e'
  | emptyExpression, emptyExpression => true
  | jsxText v r, jsxText v' r' => v == v' && r == r'
  | identifier n, identifier n' => n == n'
  | literal v r, literal v' r' => v.equals v' && r == r'
  | unary o l a, unary o' l' a' => o == o' && l == l' && p a a'
  | binary o l r, binary o' l' r' => o == o' && p l l' && p r r'
  | logical o l r, logical o' l' r' => o == o' && p l l' && p r r'
  | member o q c, member o' q' c' => p o o' && p q q' && c == c'
  | call c as, call c' as' => p c c' && agreeLists p (some as) (some as')
  | _, _ => false

end Form

namespace Node

variable {α : Type}

def kind (n : Node) : Kind := n.form.kind

mutual

def fold (f : Form α → Span → α) : Node → α
  | ⟨form, span⟩ => f (foldForm f form) span

def foldForm (f : Form α → Span → α) : Form Node → Form α
  | .fragment opening closing children =>
      .fragment (fold f opening) (fold f closing) (foldLists f children)
  | .openingFragment => .openingFragment
  | .closingFragment => .closingFragment
  | .element opening closing children =>
      .element (fold f opening) (foldOption f closing) (foldLists f children)
  | .openingElement name attributes selfClosing =>
      .openingElement (fold f name) (foldLists f attributes) selfClosing
  | .closingElement name => .closingElement (fold f name)
  | .jsxIdentifier name => .jsxIdentifier name
  | .namespacedName space name => .namespacedName (fold f space) (fold f name)
  | .jsxMember object property => .jsxMember (fold f object) (fold f property)
  | .jsxAttribute name value => .jsxAttribute (fold f name) (foldOption f value)
  | .spreadAttribute argument => .spreadAttribute (fold f argument)
  | .container expression => .container (fold f expression)
  | .spreadChild expression => .spreadChild (fold f expression)
  | .emptyExpression => .emptyExpression
  | .jsxText value raw => .jsxText value raw
  | .identifier name => .identifier name
  | .literal value raw => .literal value raw
  | .unary operator leading argument => .unary operator leading (fold f argument)
  | .binary operator left right => .binary operator (fold f left) (fold f right)
  | .logical operator left right => .logical operator (fold f left) (fold f right)
  | .member object property computed => .member (fold f object) (fold f property) computed
  | .call callee arguments => .call (fold f callee) (foldList f arguments)

def foldOption (f : Form α → Span → α) : Option Node → Option α
  | none => none
  | some n => some (fold f n)

def foldLists (f : Form α → Span → α) : Option (List Node) → Option (List α)
  | none => none
  | some ns => some (foldList f ns)

def foldList (f : Form α → Span → α) : List Node → List α
  | [] => []
  | n :: ns => fold f n :: foldList f ns

end

theorem foldListEq (f : Form α → Span → α) (ns : List Node) : foldList f ns = ns.map (fold f) := by
  induction ns with
  | nil => rfl
  | cons n ns ih => rw [foldList, ih, List.map_cons]

theorem foldOptionEq (f : Form α → Span → α) (n : Option Node) : foldOption f n = n.map (fold f) := by
  cases n <;> rfl

theorem foldListsEq (f : Form α → Span → α) (ns : Option (List Node)) :
    foldLists f ns = ns.map (List.map (fold f)) := by
  cases ns with
  | none => rfl
  | some ns => rw [foldLists, foldListEq, Option.map_some]

theorem foldFormEq (f : Form α → Span → α) (form : Form Node) :
    foldForm f form = form.map (fold f) := by
  cases form <;> simp only [foldForm, Form.map, foldListsEq, foldOptionEq, foldListEq]

theorem foldEq (f : Form α → Span → α) (n : Node) : fold f n = f (n.form.map (fold f)) n.span := by
  obtain ⟨form, span⟩ := n
  rw [fold, foldFormEq]

theorem childSmaller {form : Form Node} {c : Node} (h : c ∈ form.children) :
    sizeOf c < sizeOf form := by
  have inList : ∀ {ns : List Node}, c ∈ ns → sizeOf c < sizeOf ns := List.sizeOf_lt_of_mem
  have inLists : ∀ {ns : Option (List Node)}, c ∈ (Slot.ofLists ns).nodes → sizeOf c < sizeOf ns := by
    intro ns h
    cases ns with
    | none => cases h
    | some ns => have := @inList ns h; simp only [Option.some.sizeOf_spec]; omega
  have inOption : ∀ {n : Option Node}, c ∈ (Slot.ofOption n).nodes → sizeOf c < sizeOf n := by
    intro n h
    cases n with
    | none => cases h
    | some n =>
        cases List.mem_singleton.1 h
        simp only [Option.some.sizeOf_spec]; omega
  cases form <;>
    simp only [Form.children, Form.slots, List.flatMap_cons, List.flatMap_nil, List.append_nil,
      Slot.nodesSingle, Slot.nodesList, List.mem_append, List.mem_singleton, List.not_mem_nil] at h <;>
    simp only [Form.fragment.sizeOf_spec, Form.element.sizeOf_spec, Form.openingElement.sizeOf_spec,
      Form.closingElement.sizeOf_spec, Form.namespacedName.sizeOf_spec, Form.jsxMember.sizeOf_spec,
      Form.jsxAttribute.sizeOf_spec, Form.spreadAttribute.sizeOf_spec, Form.container.sizeOf_spec,
      Form.spreadChild.sizeOf_spec, Form.unary.sizeOf_spec, Form.binary.sizeOf_spec,
      Form.logical.sizeOf_spec, Form.member.sizeOf_spec, Form.call.sizeOf_spec] <;>
    grind

theorem inductOn {P : Node → Prop} (step : ∀ n, (∀ c ∈ n.form.children, P c) → P n) (n : Node) :
    P n :=
  step n fun c _ => inductOn step c
termination_by n
decreasing_by
  rename_i inside
  obtain ⟨form, span⟩ := n
  have := childSmaller inside
  simp only [Node.mk.sizeOf_spec] at this ⊢
  omega

def preorder (n : Node) : List Node :=
  (n.fold fun form span =>
    let self := Node.mk (form.map Prod.fst) span
    (self, self :: form.children.flatMap Prod.snd)).2

def equals (a b : Node) : Bool :=
  a.fold (fun form span (other : Node) =>
    span == other.span && form.agrees (fun same child => same child) other.form) b

def withoutSpans (n : Node) : Node := n.fold fun form _ => ⟨form, .emptyAt .origin⟩

end Node

end JsxTree
