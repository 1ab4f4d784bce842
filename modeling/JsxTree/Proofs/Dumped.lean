import JsxTree.Node.Json
import JsxTree.Proofs.Faithful
import JsxTree.Proofs.Written

/-! A dumped tree tells the tree that was parsed: all but the columns in UTF-16 units and the name of
the file, which the text leaves out. Numbers that are not finite are all written alike, and are told by
the text they were read from. -/
namespace JsxTree

def Position.dumped (p : Position) : Position := { p with units := none }

def Span.dumped (s : Span) : Span := ⟨s.start.dumped, s.stop.dumped, none⟩

def Node.dumped (n : Node) : Node := n.fold fun form span => ⟨form, span.dumped⟩

def Form.Valued {α : Type} : Form α → Prop
  | .literal v raw => (∃ k, Lexeme.Whole .script k ∧ Grammar.literalValue? k = some v ∧ raw = k.text) ∨ ∃ s, v = .string s
  | _ => True

namespace Node

abbrev Valued : Node → Prop := Everywhere fun n => n.form.Valued

theorem valuedOver {n : Node} (own : n.form.Valued) (below : ∀ c ∈ n.form.children, c.Valued) : n.Valued :=
  everywhereIff.mpr ⟨own, below⟩

theorem valuedLeaf {n : Node} (own : n.form.Valued) (childless : n.form.children = []) : n.Valued := by
  refine valuedOver own ?_
  rw [childless]
  exact List.forall_mem_nil _

end Node

open Node Grammar

theorem NameChain.valued {n : Node} (h : NameChain n) : n.Valued := by
  induction h with
  | own => exact valuedLeaf trivial rfl
  | member _ _ ih =>
      exact valuedOver trivial (List.forall_mem_cons.mpr ⟨ih, List.forall_mem_singleton.mpr (valuedLeaf trivial rfl)⟩)

theorem NameFormed.valued {chained : Bool} {n : Node} (h : NameFormed chained n) : n.Valued := by
  cases h with
  | simple => exact valuedLeaf trivial rfl
  | chain members => exact members.valued
  | namespaced =>
      exact valuedOver trivial (List.forall_mem_cons.mpr ⟨valuedLeaf trivial rfl,
        List.forall_mem_singleton.mpr (valuedLeaf trivial rfl)⟩)

theorem openingValued {own : Node} {as : List Node} {selfClosing : Bool} {span : Span} (name : NameFormed true own)
    (attributes : ∀ a ∈ as, a.Valued) : Node.Valued ⟨.openingElement own (presentList as) selfClosing, span⟩ := by
  refine valuedOver trivial ?_
  rw [childrenOpening]
  exact List.forall_mem_cons.mpr ⟨name.valued, attributes⟩

theorem Formed.valued {r : Role} {n : Node} (h : Formed r n) : n.Valued := by
  induction h with
  | identifier => exact valuedLeaf trivial rfl
  | literal token value => exact valuedLeaf (.inl ⟨_, token, value, rfl⟩) rfl
  | unary _ _ ih => exact valuedOver trivial (List.forall_mem_singleton.mpr ih)
  | @join level _ _ _ _ _ _ _ _ left right =>
      cases join : level.join <;>
        exact valuedOver trivial (List.forall_mem_cons.mpr ⟨left, List.forall_mem_singleton.mpr right⟩)
  | member _ _ ih =>
      exact valuedOver trivial (List.forall_mem_cons.mpr ⟨ih, List.forall_mem_singleton.mpr (valuedLeaf trivial rfl)⟩)
  | computed _ _ before inside =>
      exact valuedOver trivial (List.forall_mem_cons.mpr ⟨before, List.forall_mem_singleton.mpr inside⟩)
  | call _ _ before inside =>
      refine valuedOver trivial ?_
      rw [childrenCall]
      exact List.forall_mem_cons.mpr ⟨before, inside⟩
  | expressionMarkup _ ih | markupValue _ ih | markupChild _ ih => exact ih
  | fragment _ _ _ inside =>
      refine valuedOver trivial ?_
      rw [childrenFragment]
      exact List.forall_mem_cons.mpr ⟨valuedLeaf trivial rfl,
        List.forall_mem_append.mpr ⟨inside, List.forall_mem_singleton.mpr (valuedLeaf trivial rfl)⟩⟩
  | selfClosing name _ attributes =>
      exact valuedOver trivial (List.forall_mem_singleton.mpr (openingValued name attributes))
  | element name _ _ _ closingName _ attributes inside =>
      refine valuedOver trivial ?_
      rw [childrenElement]
      refine List.forall_mem_cons.mpr ⟨openingValued name attributes,
        List.forall_mem_append.mpr ⟨inside, List.forall_mem_singleton.mpr ?_⟩⟩
      exact valuedOver trivial (List.forall_mem_singleton.mpr closingName.valued)
  | stringValue => exact valuedLeaf (.inr ⟨_, rfl⟩) rfl
  | containerValue _ ih | spreadAttribute _ ih | containerChild _ ih | spreadChild _ ih =>
      exact valuedOver trivial (List.forall_mem_singleton.mpr ih)
  | plainAttribute name => exact valuedOver trivial (List.forall_mem_singleton.mpr name.valued)
  | valuedAttribute name _ ih =>
      exact valuedOver trivial (List.forall_mem_cons.mpr ⟨name.valued, List.forall_mem_singleton.mpr ih⟩)
  | text => exact valuedLeaf trivial rfl
  | emptyChild => exact valuedOver trivial (List.forall_mem_singleton.mpr (valuedLeaf trivial rfl))

namespace Kind

def all : List Kind := [fragment, openingFragment, closingFragment, element, openingElement, closingElement,
  jsxIdentifier, namespacedName, jsxMember, jsxAttribute, spreadAttribute, container, spreadChild, emptyExpression, jsxText, identifier,
  literal, unary, binary, logical, member, call]

def named? (s : String) : Option Kind := all.find? fun k => k.typeName == s

theorem namedTypeName (k : Kind) : named? k.typeName = some k := by cases k <;> decide

theorem typeNameInj {k k' : Kind} (same : k.typeName = k'.typeName) : k = k' := by
  have named := congrArg named? same
  rw [namedTypeName, namedTypeName] at named
  exact Option.some.inj named

end Kind

namespace Node

open Json

section Fields

variable {n n' : Option Node} {ns ns' : List Node} {form form' : Form Node}

def written (n : Node) : Written := n.toJson.written

theorem dumpedEq (n : Node) : n.dumped = ⟨n.form.map dumped, n.span.dumped⟩ := foldEq _ _

theorem toJsonEq (n : Node) : n.toJson = (n.form.map toJson).toJson n.span := foldEq _ _

theorem positionTold {p p' : Position} (same : p.toJson.written = p'.toJson.written) : p.dumped = p'.dumped := by
  simp only [Position.toJson, Json.written, writtenFieldsEq, Written.object.injEq, List.map_cons, List.map_nil,
    writtenField, List.cons.injEq, Prod.mk.injEq, Written.atom.injEq, Nat.repr_inj, true_and, and_true] at same
  rw [Position.dumped, Position.dumped, same.1, same.2.1, same.2.2]

theorem spanTold {s s' : Span} (same : s.fields.map writtenField = s'.fields.map writtenField) : s.dumped = s'.dumped := by
  simp only [Span.fields, List.map_cons, List.map_nil, writtenField, List.cons.injEq, Prod.mk.injEq, true_and,
    and_true] at same
  rw [Span.dumped, Span.dumped, positionTold same.1, positionTold same.2]

theorem textTold {s s' : String} : (Json.string s).written = (Json.string s').written ↔ s = s' := by
  rw [Json.written, Json.written, Written.string.injEq]

theorem flagTold {b b' : Bool} : (Json.boolean b).written = (Json.boolean b').written ↔ b = b' := by
  cases b <;> cases b' <;> simp [Json.written]

theorem objectWritten (n : Node) : ∃ fields, n.toJson.written = .object fields := by
  rw [toJsonEq]
  exact ⟨_, rfl⟩

theorem optionTold : ((n.map toJson).getD .null).written = ((n'.map toJson).getD .null).written ↔
    n.map written = n'.map written := by
  have apart : ∀ a : Node, Json.null.written ≠ a.toJson.written := by
    intro a same
    obtain ⟨fields, object⟩ := objectWritten a
    rw [object] at same
    cases same
  cases n with
  | none =>
      cases n' with
      | none => exact iff_of_true rfl rfl
      | some a' => exact iff_of_false (apart a') (Option.some_ne_none _).symm
  | some a =>
      cases n' with
      | none => exact iff_of_false (apart a).symm (Option.some_ne_none _)
      | some a' => exact Option.some_inj.symm

theorem listTold : (Json.array (ns.map toJson)).written = (Json.array (ns'.map toJson)).written ↔
    ns.map written = ns'.map written := by
  simp only [Json.written, writtenItemsEq, Written.array.injEq, List.map_map]
  exact Iff.rfl

theorem listsTold {ns ns' : Option (List Node)} :
    (((ns.map (List.map toJson)).map Json.array).getD .null).written =
      (((ns'.map (List.map toJson)).map Json.array).getD .null).written ↔
    ns.map (List.map written) = ns'.map (List.map written) := by
  cases ns with
  | none =>
      cases ns' with
      | none => exact iff_of_true rfl rfl
      | some => exact iff_of_false (by rintro ⟨⟩) (Option.some_ne_none _).symm
  | some ns =>
      cases ns' with
      | none => exact iff_of_false (by rintro ⟨⟩) (Option.some_ne_none _)
      | some ns' => exact listTold.trans Option.some_inj.symm

theorem valueTold {v v' : Value} {raw : String} (valued : (Form.literal (α := Node) v raw).Valued)
    (valued' : (Form.literal (α := Node) v' raw).Valued) (same : v.toJson.written = v'.toJson.written) : v = v' := by
  have strings : ∀ {s} {v : Value}, Written.string s = v.toJson.written → v = .string s := by
    intro s v same
    cases v <;> cases same
    rfl
  obtain ⟨k, whole, value, rfl⟩ | ⟨s, rfl⟩ := valued
  · obtain ⟨k', whole', value', text⟩ | ⟨s, rfl⟩ := valued'
    · have lexemes := whole.1
      rw [text, whole'.1, Option.some.injEq, Lexeme.mk.injEq] at lexemes
      rw [lexemes.1] at value'
      exact Option.some.inj (value.symm.trans value')
    · exact strings same.symm
  · exact (strings same).symm

def writtenForm (form : Form Json) : List (String × Written) :=
  form.fields.map fun (name, field) => (name, field.toJson.written)

theorem formTold (kind : form.kind = form'.kind) (valued : form.Valued) (valued' : form'.Valued)
    (same : writtenForm (form.map toJson) = writtenForm (form'.map toJson)) : form.map written = form'.map written := by
  cases form <;> cases form' <;> cases kind
  all_goals
    simp only [writtenForm, Form.map, Form.fields, Field.toJson, List.map_cons, List.map_nil, List.cons.injEq,
      Prod.mk.injEq, true_and, and_true, textTold, flagTold, optionTold, listTold, listsTold] at same
  case literal.literal =>
    obtain ⟨value, rfl⟩ := same
    rw [valueTold valued valued' value]
  all_goals simp only [Form.map, written, same]

end Fields

section Trees

theorem mapTold {β γ : Type} [Inhabited γ] {f : Node → β} {g : Node → γ} {form form' : Form Node}
    (same : form.map f = form'.map f)
    (told : ∀ a ∈ form.children, ∀ a' ∈ form'.children, f a = f a' → g a = g a') : form.map g = form'.map g := by
  have each := congrArg Form.children same
  rw [Form.childrenMap, Form.childrenMap] at each
  have across : ∀ a ∈ form.children, ∃ a' ∈ form'.children, f a' = f a := fun a inside =>
    List.mem_map.mp (each ▸ List.mem_map_of_mem inside)
  have back : ∀ a' ∈ form'.children, ∃ a ∈ form.children, f a = f a' := fun a' inside =>
    List.mem_map.mp (each ▸ List.mem_map_of_mem inside)
  have known : ∀ w, ∃ v, ∀ a' ∈ form'.children, f a' = w → g a' = v := by
    intro w
    by_cases found : ∃ a ∈ form.children, f a = w
    · obtain ⟨a, inside, rfl⟩ := found
      exact ⟨g a, fun a' inside' alike => (told a inside a' inside' alike.symm).symm⟩
    · refine ⟨default, fun a' inside' alike => ?_⟩
      obtain ⟨a, inside, first⟩ := back a' inside'
      exact absurd ⟨a, inside, first.trans alike⟩ found
  choose h reads using known
  have left : form.map g = form.map (h ∘ f) := by
    refine Form.mapCongr fun a inside => ?_
    obtain ⟨a', inside', alike⟩ := across a inside
    rw [told a inside a' inside' alike.symm, reads (f a') a' inside' rfl, Function.comp_apply, alike]
  have right : form'.map g = form'.map (h ∘ f) := Form.mapCongr fun a' inside => reads (f a') a' inside rfl
  rw [left, right, ← Form.mapMap, ← Form.mapMap, same]

theorem writtenEq (n : Node) : n.written = .object (("type", .string n.kind.typeName) ::
    (writtenForm (n.form.map toJson) ++ n.span.fields.map writtenField)) := by
  rw [written, toJsonEq, Form.toJson, Json.written, writtenFieldsEq, Form.kindMap]
  simp only [List.cons_append, List.map_cons, List.map_append, List.map_map]
  rfl

theorem writtenTold {n n' : Node} (valued : n.Valued) (valued' : n'.Valued) (same : n.written = n'.written) :
    n.dumped = n'.dumped := by
  induction n using inductOn generalizing n' with
  | step n below =>
      obtain ⟨own, inner⟩ := everywhereIff.mp valued
      obtain ⟨own', inner'⟩ := everywhereIff.mp valued'
      rw [writtenEq, writtenEq] at same
      simp only [Written.object.injEq, List.cons.injEq, Prod.mk.injEq, true_and, Written.string.injEq] at same
      obtain ⟨kind, fields⟩ := same
      obtain ⟨forms, spans⟩ := List.append_inj' fields rfl
      rw [dumpedEq, dumpedEq, spanTold spans]
      have children := mapTold (formTold (Kind.typeNameInj kind) own own' forms) fun a inside a' inside' =>
        below a inside (inner a inside) (inner' a' inside')
      rw [children]

theorem dumpedToJson (n : Node) : n.dumped.toJson = n.toJson := by
  induction n using inductOn with
  | step n below =>
      rw [dumpedEq, toJsonEq, toJsonEq n, Form.mapMap]
      have children : n.form.map (toJson ∘ dumped) = n.form.map toJson := Form.mapCongr below
      rw [children]
      rfl

end Trees

end Node

/-- Two parsed trees have the same text just when they differ in UTF-16 columns and file names at most. -/
theorem compactTellsTrees {source source' : String} {config config' : Config} {file file' : Option String}
    {n n' : Node} (parsed : parse source config file = .ok n) (parsed' : parse source' config' file' = .ok n') :
    n.toJson.compact = n'.toJson.compact ↔ n.dumped = n'.dumped := by
  constructor
  · intro same
    exact Node.writtenTold (parseFormed parsed).valued (parseFormed parsed').valued (Json.compactTold same)
  · intro same
    rw [← Node.dumpedToJson n, same, Node.dumpedToJson]

theorem compactTellsUnits : ∃ n n', parse "/*𐀀a*/x" {} none = .ok n ∧
    parse "/*é€*/x" { jsx := false } (some "x.jsx") = .ok n' ∧ n.span.start.units ≠ n'.span.start.units ∧
    n.toJson.compact = n'.toJson.compact ∧ n.dumped = n'.dumped := by
  obtain ⟨n, parsed, both⟩ : ∃ n, parse "/*𐀀a*/x" {} none = .ok n ∧
      ((parse "/*é€*/x" { jsx := false } (some "x.jsx")).toOption.any fun n' =>
        n.span.start.units != n'.span.start.units && n.toJson.compact == n'.toJson.compact) = true :=
    Parser.acceptedOf (by decide +kernel)
  obtain ⟨n', parsed', both⟩ := Parser.acceptedOf both
  simp only [Bool.and_eq_true, bne_iff_ne, beq_iff_eq] at both
  exact ⟨n, n', parsed, parsed', both.1, both.2, (compactTellsTrees parsed parsed').mp both.2⟩

end JsxTree
