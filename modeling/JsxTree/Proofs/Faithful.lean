import JsxTree.Proofs.Formed
import JsxTree.Proofs.Preorder

/-! Trees that their normal form is faithful to: it keeps apart what the tree keeps apart, and reading it
back nests no deeper than the limit. -/
namespace JsxTree

def deepest (depths : List Nat) : Nat := depths.foldr max 0

/-- How deep reading the normal form nests: every binary operation gains parentheses, and no other
node keeps any. -/
def Form.nesting : Form Nat → Nat
  | .unary _ _ argument => argument + 1
  | .binary _ left right | .logical _ left right => max left right + 1
  | .member object property true => max object (property + 1)
  | .call callee arguments => max callee (deepest arguments + 1)
  | .fragment opening closing children => deepest (Form.fragment opening closing children).children + 1
  | .element opening closing children => deepest (Form.element opening closing children).children + 1
  | form => deepest form.children

def Form.endsDecimal : Form Bool → Bool
  | .literal _ raw => raw.toList.all Lexeme.isDecimalPart
  | .unary _ _ argument => argument
  | _ => false

theorem Form.kindMap {α β : Type} (f : α → β) (form : Form α) : (form.map f).kind = form.kind := by cases form <;> rfl

namespace Node

def nesting (n : Node) : Nat := n.fold fun form _ => form.nesting

def doubles (o : String) : Bool := o == "+" || o == "-"

def endsDecimal (n : Node) : Bool := n.fold fun form _ => form.endsDecimal

/-- What the parentheses around a child would have kept apart is apart without them. -/
def separable (n : Node) : Bool :=
  match n.form with
  | .unary o _ argument =>
      match argument.form with
      | .unary o' _ _ => !(doubles o && o == o')
      | _ => true
  | .member object _ computed => object.kind != .unary && (computed || !object.endsDecimal)
  | .call callee _ => callee.kind != .unary
  | _ => true

def faithful (limit : Nat) (n : Node) : Bool := n.preorder.all separable && decide (n.nesting ≤ limit)

def Alike (a b : Node) : Prop := a.withoutSpans = b.withoutSpans

def Fits (limit depth : Nat) (n : Node) : Prop :=
  n.Everywhere (separable · = true) ∧ (0 < n.nesting → n.nesting + depth ≤ limit)

theorem faithfulIff {limit : Nat} {n : Node} : n.faithful limit = true ↔ n.Fits limit 0 := by
  simp only [faithful, Fits, Everywhere, Bool.and_eq_true, List.all_eq_true, decide_eq_true_eq]
  exact and_congr_right fun _ => by omega

section Alike

variable {a b : Node} {f g : Form Node} {span span' : Span}

theorem alikeForms : (⟨f, span⟩ : Node).Alike ⟨g, span'⟩ ↔ f.map withoutSpans = g.map withoutSpans := by
  simp only [Alike, withoutSpans, foldEq, Node.mk.injEq, and_true]
  rfl

end Alike

section Fits

variable {limit depth : Nat} {a l r object property own closing value : Node} {as ns : List Node} {o s : String}
  {span span' span'' : Span} {form : Form Node}

theorem nestingEq : (⟨form, span⟩ : Node).nesting = (form.map nesting).nesting := by
  rw [nesting, foldEq]
  rfl

theorem deepestFits {ks : List Nat} : (0 < deepest ks → deepest ks + depth ≤ limit) ↔
    ∀ k ∈ ks, 0 < k → k + depth ≤ limit := by
  induction ks with
  | nil => simp [deepest]
  | cons k ks ih =>
      have step : deepest (k :: ks) = max k (deepest ks) := rfl
      rw [List.forall_mem_cons, ← ih, step]
      omega

theorem fitsPlain (sum : (form.map nesting).nesting = deepest (form.map nesting).children) :
    (⟨form, span⟩ : Node).Fits limit depth ↔
      (⟨form, span⟩ : Node).separable = true ∧ ∀ c ∈ form.children, c.Fits limit depth := by
  simp only [Fits, nestingEq, sum, deepestFits, Form.childrenMap, List.forall_mem_map]
  rw [everywhereIff]
  exact ⟨fun ⟨⟨own, below⟩, room⟩ => ⟨own, fun c inside => ⟨below c inside, room c inside⟩⟩,
    fun ⟨own, below⟩ => ⟨⟨own, fun c inside => (below c inside).1⟩, fun c inside => (below c inside).2⟩⟩

theorem fitsDeeper (sum : (form.map nesting).nesting = deepest (form.map nesting).children + 1) :
    (⟨form, span⟩ : Node).Fits limit depth ↔
      (⟨form, span⟩ : Node).separable = true ∧ depth < limit ∧ ∀ c ∈ form.children, c.Fits limit (depth + 1) := by
  have room : (0 < deepest (form.children.map nesting) + 1 → deepest (form.children.map nesting) + 1 + depth ≤ limit) ↔
      depth < limit ∧ ∀ c ∈ form.children, 0 < c.nesting → c.nesting + (depth + 1) ≤ limit := by
    rw [← List.forall_mem_map (P := fun k => 0 < k → k + (depth + 1) ≤ limit), ← deepestFits]
    omega
  simp only [Fits, nestingEq, sum, Form.childrenMap, room]
  rw [everywhereIff]
  exact ⟨fun ⟨⟨own, below⟩, less, room⟩ => ⟨own, less, fun c inside => ⟨below c inside, room c inside⟩⟩,
    fun ⟨own, less, below⟩ => ⟨⟨own, fun c inside => (below c inside).1⟩, less, fun c inside => (below c inside).2⟩⟩

theorem fitsLeaf (childless : form.children = []) (sum : (form.map nesting).nesting = 0)
    (own : (⟨form, span⟩ : Node).separable = true) : (⟨form, span⟩ : Node).Fits limit depth := by
  refine (fitsPlain ?_).mpr ⟨own, by simp [childless]⟩
  rw [sum, Form.childrenMap, childless]
  rfl

theorem fitsOnly (only : form.children = [a]) (sum : (form.map nesting).nesting = deepest (form.map nesting).children)
    (own : (⟨form, span⟩ : Node).separable = true) : (⟨form, span⟩ : Node).Fits limit depth ↔ a.Fits limit depth := by
  rw [fitsPlain sum, only, List.forall_mem_singleton]
  exact and_iff_right own

theorem fitsUnary {leading : Bool} : (⟨.unary o leading a, span⟩ : Node).Fits limit depth ↔
    (⟨.unary o leading a, span⟩ : Node).separable = true ∧ depth < limit ∧ a.Fits limit (depth + 1) := by
  rw [fitsDeeper (by simp [Form.map, Form.nesting, Form.children, Form.slots, Slot.nodes, deepest])]
  simp [Form.children, Form.slots, Slot.nodes]

theorem fitsJoin (join : Parser.Join) : (⟨join.form o l r, span⟩ : Node).Fits limit depth ↔
    depth < limit ∧ l.Fits limit (depth + 1) ∧ r.Fits limit (depth + 1) := by
  rw [fitsDeeper (by
    cases join <;> simp [Parser.Join.form, Form.map, Form.nesting, Form.children, Form.slots, Slot.nodes, deepest])]
  cases join <;> simp [Parser.Join.form, Form.children, Form.slots, Slot.nodes, separable]

theorem fitsMember : (⟨.member object ⟨.identifier s, span'⟩ false, span⟩ : Node).Fits limit depth ↔
    object.kind ≠ .unary ∧ object.endsDecimal = false ∧ object.Fits limit depth := by
  have name : (⟨.identifier s, span'⟩ : Node).Fits limit depth := fitsLeaf rfl rfl rfl
  rw [fitsPlain rfl]
  simp [Form.children, Form.slots, Slot.nodes, separable, name, and_assoc]

theorem fitsComputed : (⟨.member object property true, span⟩ : Node).Fits limit depth ↔
    object.kind ≠ .unary ∧ object.Fits limit depth ∧ depth < limit ∧ property.Fits limit (depth + 1) := by
  have sum : (⟨.member object property true, span⟩ : Node).nesting = max object.nesting (property.nesting + 1) := by
    rw [nestingEq]
    rfl
  have own : (⟨.member object property true, span⟩ : Node).separable = true ↔ object.kind ≠ .unary := by
    simp [separable]
  have row : ∀ P : Node → Prop, (∀ c ∈ (Form.member object property true).children, P c) ↔ P object ∧ P property := by
    simp [Form.children, Form.slots, Slot.nodes]
  simp only [Fits, sum]
  rw [everywhereIff, own, row]
  constructor
  · rintro ⟨⟨own, before, inside⟩, room⟩
    exact ⟨own, ⟨before, by omega⟩, by omega, inside, by omega⟩
  · rintro ⟨own, ⟨before, room⟩, less, inside, room'⟩
    exact ⟨⟨own, before, inside⟩, by omega⟩

theorem fitsCall : (⟨.call object ns, span⟩ : Node).Fits limit depth ↔
    object.kind ≠ .unary ∧ object.Fits limit depth ∧ depth < limit ∧ ∀ n ∈ ns, n.Fits limit (depth + 1) := by
  have sum : (⟨.call object ns, span⟩ : Node).nesting = max object.nesting (deepest (ns.map nesting) + 1) := by
    rw [nestingEq]
    rfl
  have own : (⟨.call object ns, span⟩ : Node).separable = true ↔ object.kind ≠ .unary := by simp [separable]
  have deep := @deepestFits limit (depth + 1) (ns.map nesting)
  rw [List.forall_mem_map] at deep
  simp only [Fits, sum]
  rw [everywhereIff, own, Grammar.childrenCall, List.forall_mem_cons]
  constructor
  · rintro ⟨⟨own, before, inside⟩, room⟩
    have below := deep.mp (by omega)
    exact ⟨own, ⟨before, by omega⟩, by omega, fun n member => ⟨inside n member, below n member⟩⟩
  · rintro ⟨own, ⟨before, room⟩, less, inside⟩
    have below := deep.mpr fun n member => (inside n member).2
    exact ⟨⟨own, before, fun n member => (inside n member).1⟩, by omega⟩

theorem fitsFragment : (⟨.fragment ⟨.openingFragment, span⟩ ⟨.closingFragment, span'⟩ (Grammar.presentList ns), span''⟩ :
    Node).Fits limit depth ↔ depth < limit ∧ ∀ n ∈ ns, n.Fits limit (depth + 1) := by
  rw [fitsDeeper rfl, Grammar.childrenFragment, List.forall_mem_cons, List.forall_mem_append, List.forall_mem_singleton]
  constructor
  · rintro ⟨-, less, -, inside, -⟩
    exact ⟨less, inside⟩
  · rintro ⟨less, inside⟩
    exact ⟨rfl, less, fitsLeaf rfl rfl rfl, inside, fitsLeaf rfl rfl rfl⟩

theorem fitsContainer : (⟨.container a, span⟩ : Node).Fits limit depth ↔ a.Fits limit depth := fitsOnly rfl rfl rfl

theorem fitsSpreadChild : (⟨.spreadChild a, span⟩ : Node).Fits limit depth ↔ a.Fits limit depth := fitsOnly rfl rfl rfl

theorem fitsSpreadAttribute : (⟨.spreadAttribute a, span⟩ : Node).Fits limit depth ↔ a.Fits limit depth :=
  fitsOnly rfl rfl rfl

theorem chainFits (h : NameChain a) : a.Fits limit depth := by
  induction h with
  | own => exact fitsLeaf rfl rfl rfl
  | @member object s span span' _ _ ih =>
      have name : (⟨.jsxIdentifier s, span'⟩ : Node).Fits limit depth := fitsLeaf rfl rfl rfl
      rw [fitsPlain rfl]
      simp [Form.children, Form.slots, Slot.nodes, separable, ih, name]

theorem nameFits {chained : Bool} (h : NameFormed chained a) : a.Fits limit depth := by
  have name : ∀ s span, (⟨.jsxIdentifier s, span⟩ : Node).Fits limit depth := fun _ _ => fitsLeaf rfl rfl rfl
  cases h with
  | simple => exact name _ _
  | chain members => exact chainFits members
  | namespaced =>
      rw [fitsPlain rfl]
      simp [Form.children, Form.slots, Slot.nodes, separable, name]

theorem fitsPlainAttribute {chained : Bool} (name : NameFormed chained own) :
    (⟨.jsxAttribute own none, span⟩ : Node).Fits limit depth := (fitsOnly rfl rfl rfl).mpr (nameFits name)

theorem fitsValuedAttribute {chained : Bool} (name : NameFormed chained own) :
    (⟨.jsxAttribute own (some value), span⟩ : Node).Fits limit depth ↔ value.Fits limit depth := by
  rw [fitsPlain rfl]
  simp [Form.children, Form.slots, Slot.nodes, Slot.ofOption, separable, nameFits name]

theorem fitsOpening {chained selfClosing : Bool} (name : NameFormed chained own) :
    (⟨.openingElement own (Grammar.presentList as) selfClosing, span⟩ : Node).Fits limit depth ↔
      ∀ a ∈ as, a.Fits limit depth := by
  rw [fitsPlain rfl, Grammar.childrenOpening, List.forall_mem_cons]
  simp [separable, nameFits name]

theorem fitsClosing {chained : Bool} (name : NameFormed chained closing) :
    (⟨.closingElement closing, span⟩ : Node).Fits limit depth := (fitsOnly rfl rfl rfl).mpr (nameFits name)

theorem fitsSelfClosing {chained : Bool} (name : NameFormed chained own) :
    (⟨.element ⟨.openingElement own (Grammar.presentList as) true, span⟩ none none, span'⟩ : Node).Fits limit depth ↔
      depth < limit ∧ ∀ a ∈ as, a.Fits limit (depth + 1) := by
  rw [fitsDeeper rfl]
  simp [Form.children, Form.slots, Slot.nodes, Slot.ofOption, Slot.ofLists, separable, fitsOpening name]

theorem fitsElement {chained : Bool} (name : NameFormed chained own) (closingName : NameFormed chained closing) :
    (⟨.element ⟨.openingElement own (Grammar.presentList as) false, span⟩ (some ⟨.closingElement closing, span'⟩)
      (Grammar.presentList ns), span''⟩ : Node).Fits limit depth ↔
      depth < limit ∧ (∀ a ∈ as, a.Fits limit (depth + 1)) ∧ ∀ n ∈ ns, n.Fits limit (depth + 1) := by
  rw [fitsDeeper rfl, Grammar.childrenElement, List.forall_mem_cons, List.forall_mem_append, List.forall_mem_singleton,
    fitsOpening name]
  constructor
  · rintro ⟨-, less, opening, inside, -⟩
    exact ⟨less, opening, inside⟩
  · rintro ⟨less, opening, inside⟩
    exact ⟨rfl, less, opening, inside, fitsClosing closingName⟩

end Fits

end Node

end JsxTree
