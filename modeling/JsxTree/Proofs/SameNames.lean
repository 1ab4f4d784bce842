import JsxTree.Proofs.Naming

/-! Comparing names and writing them out. Names that are the same are written the same, whatever trees they are put into; of
names that were parsed the converse is true as well, as no part of one holds a point or a colon. -/
namespace JsxTree

inductive SameName : Node → Node → Prop where
  | identifier (s : String) (span span' : Span) : SameName ⟨.jsxIdentifier s, span⟩ ⟨.jsxIdentifier s, span'⟩
  | namespaced {space space' name name' : Node} (spaces : SameName space space') (names : SameName name name')
      (span span' : Span) : SameName ⟨.namespacedName space name, span⟩ ⟨.namespacedName space' name', span'⟩
  | member {object object' property property' : Node} (objects : SameName object object')
      (properties : SameName property property') (span span' : Span) :
      SameName ⟨.jsxMember object property, span⟩ ⟨.jsxMember object' property', span'⟩

namespace SameName

variable {a b c n : Node}

theorem symm (h : SameName a b) : SameName b a := by
  induction h with
  | identifier s span span' => exact .identifier s span' span
  | namespaced _ _ span span' ih ih' => exact .namespaced ih ih' span' span
  | member _ _ span span' ih ih' => exact .member ih ih' span' span

theorem trans (h : SameName a b) (h' : SameName b c) : SameName a c := by
  induction h generalizing c with
  | identifier s span _ =>
      cases h' with
      | identifier _ _ span' => exact .identifier s span span'
  | namespaced _ _ span _ ih ih' =>
      cases h' with
      | namespaced spaces names _ span' => exact .namespaced (ih spaces) (ih' names) span span'
  | member _ _ span _ ih ih' =>
      cases h' with
      | member objects properties _ span' => exact .member (ih objects) (ih' properties) span span'

theorem written (h : SameName a b) : ∃ s, a.nameText = some s ∧ b.nameText = some s := by
  induction h with
  | identifier s span span' => exact ⟨s, ownText s span, ownText s span'⟩
  | namespaced _ _ _ _ ih ih' =>
      obtain ⟨s, first, first'⟩ := ih
      obtain ⟨t, second, second'⟩ := ih'
      refine ⟨s ++ ":" ++ t, ?_, ?_⟩
      · rw [nameTextEq, Form.map, Form.nameText, first, second]
        rfl
      · rw [nameTextEq, Form.map, Form.nameText, first', second']
        rfl
  | member _ _ _ _ ih ih' =>
      obtain ⟨s, first, first'⟩ := ih
      obtain ⟨t, second, second'⟩ := ih'
      refine ⟨s ++ "." ++ t, ?_, ?_⟩
      · rw [nameTextEq, Form.map, Form.nameText, first, second]
        rfl
      · rw [nameTextEq, Form.map, Form.nameText, first', second']
        rfl

theorem self {s : String} (text : n.nameText = some s) : SameName n n := by
  induction n using Node.inductOn generalizing s with
  | step n below =>
      obtain ⟨form, span⟩ := n
      rw [nameTextEq] at text
      cases form with
      | jsxIdentifier name => exact .identifier name span span
      | namespacedName space name =>
          simp only [Form.map, Form.nameText, Option.bind_eq_bind, Option.bind_eq_some_iff] at text
          obtain ⟨t, first, u, second, -⟩ := text
          exact .namespaced (below space List.mem_cons_self first)
            (below name (List.mem_cons_of_mem _ (List.mem_singleton_self _)) second) span span
      | jsxMember object property =>
          simp only [Form.map, Form.nameText, Option.bind_eq_bind, Option.bind_eq_some_iff] at text
          obtain ⟨t, first, u, second, -⟩ := text
          exact .member (below object List.mem_cons_self first)
            (below property (List.mem_cons_of_mem _ (List.mem_singleton_self _)) second) span span
      | _ => cases text

theorem compares (h : SameName a b) : a.sameName b = true := by
  induction h with
  | identifier =>
      rw [Node.sameNameEq]
      exact beq_self_eq_true _
  | namespaced _ _ _ _ ih ih' | member _ _ _ _ ih ih' =>
      rw [Node.sameNameEq]
      simp only [Form.map, Form.sameName, ih, ih', Bool.and_self]

theorem ofCompared (h : a.sameName b = true) : SameName a b := by
  induction a using Node.inductOn generalizing b with
  | step a below =>
      obtain ⟨form, span⟩ := a
      obtain ⟨other, span'⟩ := b
      rw [Node.sameNameEq] at h
      cases form with
      | jsxIdentifier name =>
          cases other with
          | jsxIdentifier name' =>
              obtain rfl : name = name' := by simpa [Form.map, Form.sameName] using h
              exact .identifier name span span'
          | _ => cases h
      | namespacedName space name =>
          cases other with
          | namespacedName space' name' =>
              simp only [Form.map, Form.sameName, Bool.and_eq_true] at h
              exact .namespaced (below space List.mem_cons_self h.1)
                (below name (List.mem_cons_of_mem _ (List.mem_singleton_self _)) h.2) span span'
          | _ => cases h
      | jsxMember object property =>
          cases other with
          | jsxMember object' property' =>
              simp only [Form.map, Form.sameName, Bool.and_eq_true] at h
              exact .member (below object List.mem_cons_self h.1)
                (below property (List.mem_cons_of_mem _ (List.mem_singleton_self _)) h.2) span span'
          | _ => cases h
      | _ => cases h

end SameName

def Form.label? {α : Type} : Form α → Option α
  | .openingElement name _ _ | .closingElement name | .jsxAttribute name _ => some name
  | _ => none

def Node.labels (n : Node) : List Node := n.preorder.filterMap fun m => m.form.label?

section Labels

open Grammar

theorem NameFormed.chained {chained : Bool} {n : Node} (h : NameFormed chained n) : NameFormed true n := by
  cases h with
  | simple token => exact .chain (.own token)
  | chain members => exact .chain members
  | namespaced space own => exact .namespaced space own

inductive Constituent : Node → Prop where
  | formed {role : Role} {n : Node} (formed : Formed role n) : Constituent n
  | chain {n : Node} (members : NameChain n) : Constituent n
  | name {chained : Bool} {n : Node} (name : NameFormed chained n) : Constituent n
  | opening {own : Node} {as : List Node} {selfClosing : Bool} {span : Span} (name : NameFormed true own)
      (attributes : ∀ a ∈ as, Formed .attribute a) : Constituent ⟨.openingElement own (presentList as) selfClosing, span⟩
  | closing {own : Node} {span : Span} (name : NameFormed true own) : Constituent ⟨.closingElement own, span⟩
  | leaf {form : Form Node} {span : Span} (childless : form.children = []) : Constituent ⟨form, span⟩

theorem labelChild {form : Form Node} {a : Node} (h : form.label? = some a) : a ∈ form.children := by
  cases form <;> cases h <;> exact List.mem_cons_self

def Labelled (n : Node) : Prop := (∀ a, n.form.label? = some a → NameFormed true a) ∧ ∀ c ∈ n.form.children, Constituent c

theorem labelledPlain {n : Node} (plain : n.form.label? = none) (below : ∀ c ∈ n.form.children, Constituent c) : Labelled n := by
  refine ⟨fun a same => ?_, below⟩
  rw [plain] at same
  cases same

theorem labelledLeaf {n : Node} (childless : n.form.children = []) : Labelled n := by
  refine ⟨fun a same => ?_, by rw [childless]; exact List.forall_mem_nil _⟩
  have inside := labelChild same
  rw [childless] at inside
  cases inside

theorem NameChain.labelled {n : Node} (h : NameChain n) : Labelled n := by
  cases h with
  | own => exact labelledLeaf rfl
  | member before =>
      exact labelledPlain rfl (List.forall_mem_cons.mpr ⟨.chain before, List.forall_mem_singleton.mpr (.leaf rfl)⟩)

theorem NameFormed.labelled {chained : Bool} {n : Node} (h : NameFormed chained n) : Labelled n := by
  cases h with
  | simple => exact labelledLeaf rfl
  | chain members => exact members.labelled
  | namespaced =>
      exact labelledPlain rfl (List.forall_mem_cons.mpr ⟨.leaf rfl, List.forall_mem_singleton.mpr (.leaf rfl)⟩)

theorem Formed.labelled {role : Role} {n : Node} (h : Formed role n) : Labelled n := by
  induction h with
  | identifier | literal | stringValue | text => exact labelledLeaf rfl
  | unary _ argument => exact labelledPlain rfl (List.forall_mem_singleton.mpr (.formed argument))
  | @join level o l r _ _ _ left right =>
      have both : (level.join.form o l r).children = [l, r] := by cases level.join <;> rfl
      refine labelledPlain (by cases level.join <;> rfl) ?_
      rw [both]
      exact List.forall_mem_cons.mpr ⟨.formed left, List.forall_mem_singleton.mpr (.formed right)⟩
  | member before =>
      exact labelledPlain rfl (List.forall_mem_cons.mpr ⟨.formed before, List.forall_mem_singleton.mpr (.leaf rfl)⟩)
  | computed before inside =>
      exact labelledPlain rfl
        (List.forall_mem_cons.mpr ⟨.formed before, List.forall_mem_singleton.mpr (.formed inside)⟩)
  | call before inside =>
      refine labelledPlain rfl ?_
      rw [childrenCall]
      exact List.forall_mem_cons.mpr ⟨.formed before, fun n member => .formed (inside n member)⟩
  | expressionMarkup _ ih | markupValue _ ih | markupChild _ ih => exact ih
  | fragment inside =>
      refine labelledPlain rfl ?_
      rw [childrenFragment]
      exact List.forall_mem_cons.mpr ⟨.leaf rfl, List.forall_mem_append.mpr
        ⟨fun n member => .formed (inside n member), List.forall_mem_singleton.mpr (.leaf rfl)⟩⟩
  | selfClosing name attributes =>
      exact labelledPlain rfl (List.forall_mem_singleton.mpr (.opening name attributes))
  | element name attributes inside _ closingName =>
      refine labelledPlain rfl ?_
      rw [childrenElement]
      exact List.forall_mem_cons.mpr ⟨.opening name attributes, List.forall_mem_append.mpr
        ⟨fun n member => .formed (inside n member), List.forall_mem_singleton.mpr (.closing closingName)⟩⟩
  | containerValue inside | containerChild inside | spreadAttribute inside | spreadChild inside =>
      exact labelledPlain rfl (List.forall_mem_singleton.mpr (.formed inside))
  | plainAttribute name =>
      exact ⟨fun a same => Option.some.inj same ▸ name.chained, List.forall_mem_singleton.mpr (.name name)⟩
  | valuedAttribute name assigned =>
      exact ⟨fun a same => Option.some.inj same ▸ name.chained,
        List.forall_mem_cons.mpr ⟨.name name, List.forall_mem_singleton.mpr (.formed assigned)⟩⟩
  | emptyChild => exact labelledPlain rfl (List.forall_mem_singleton.mpr (.leaf rfl))

theorem Constituent.labelled {n : Node} (h : Constituent n) : Labelled n := by
  cases h with
  | formed formed => exact formed.labelled
  | chain members => exact members.labelled
  | name name => exact name.labelled
  | @opening own as selfClosing span name attributes =>
      refine ⟨fun a same => Option.some.inj same ▸ name, ?_⟩
      rw [childrenOpening]
      exact List.forall_mem_cons.mpr ⟨.name name, fun a inside => .formed (attributes a inside)⟩
  | closing name => exact ⟨fun a same => Option.some.inj same ▸ name, List.forall_mem_singleton.mpr (.name name)⟩
  | leaf childless => exact labelledLeaf childless

theorem parsedLabels {source : String} {config : Config} {file : Option String} {tree : Node}
    (accepted : parse source config file = .ok tree) : ∀ a ∈ tree.labels, NameFormed true a := by
  have everywhere := Node.everywhereOf (fun _ met => Constituent.labelled met) (.formed (parseFormed accepted))
  intro a inside
  obtain ⟨n, below, label⟩ := List.mem_filterMap.mp inside
  exact everywhere n below a label

end Labels

/-- Comparing names is symmetric and transitive, only what can be written as a name is the same as itself, and names that
are the same are written the same. Labels of parsed trees, from whatever sources, are the same if they are written the same. -/
theorem namesCompare :
    (∀ a b : Node, a.sameName b = true → b.sameName a = true) ∧
    (∀ a b c : Node, a.sameName b = true → b.sameName c = true → a.sameName c = true) ∧
    (∀ a : Node, a.sameName a = true ↔ a.nameText.isSome = true) ∧
    (∀ a b : Node, a.sameName b = true → ∃ s, a.nameText = some s ∧ b.nameText = some s) ∧
    ∀ source config file tree source' config' file' tree', parse source config file = .ok tree →
      parse source' config' file' = .ok tree' → ∀ a ∈ tree.labels, ∀ b ∈ tree'.labels,
      a.nameText = b.nameText → a.sameName b = true := by
  refine ⟨fun a b h => ?_, fun a b c h h' => ?_, fun a => ⟨fun h => ?_, fun h => ?_⟩, fun a b h => ?_, ?_⟩
  · exact (SameName.ofCompared h).symm.compares
  · exact ((SameName.ofCompared h).trans (.ofCompared h')).compares
  · obtain ⟨s, text, -⟩ := (SameName.ofCompared h).written
    exact Option.isSome_iff_exists.mpr ⟨s, text⟩
  · obtain ⟨s, text⟩ := Option.isSome_iff_exists.mp h
    exact (SameName.self text).compares
  · exact (SameName.ofCompared h).written
  · intro source config file tree source' config' file' tree' accepted accepted' a inside b inside' texts
    exact (parsedLabels accepted a inside).same (parsedLabels accepted' b inside') texts

theorem namesCompareSpread : ∃ tree tree' a b, parse "<a.b/>" {} none = .ok tree ∧ parse "< a . b />" {} none = .ok tree' ∧
    a ∈ tree.labels ∧ b ∈ tree'.labels ∧ a.nameText = some "a.b" ∧ a.span ≠ b.span ∧ a.sameName b = true := by
  obtain ⟨tree, accepted, labels⟩ : ∃ tree, parse "<a.b/>" {} none = .ok tree ∧
      (tree.labels.any fun a => a.nameText == some "a.b" && a.span.stop.offset == 4) = true :=
    Parser.acceptedOf (by decide +kernel)
  obtain ⟨tree', accepted', labels'⟩ : ∃ tree, parse "< a . b />" {} none = .ok tree ∧
      (tree.labels.any fun a => a.nameText == some "a.b" && a.span.stop.offset == 7) = true :=
    Parser.acceptedOf (by decide +kernel)
  obtain ⟨a, inside, here⟩ := List.any_eq_true.mp labels
  obtain ⟨b, inside', there⟩ := List.any_eq_true.mp labels'
  rw [Bool.and_eq_true, beq_iff_eq, beq_iff_eq] at here there
  refine ⟨tree, tree', a, b, accepted, accepted', inside, inside', here.1, fun spans => ?_, ?_⟩
  · rw [spans, there.2] at here
    cases here.2
  · exact namesCompare.2.2.2.2 _ _ _ tree _ _ _ tree' accepted accepted' a inside b inside' (here.1.trans there.1.symm)

end JsxTree
