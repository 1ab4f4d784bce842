import Mathlib
import JsxTree.Node

/-! All nodes of a tree: the node itself and those of its children. What passes from a node to its
children holds of every one of them. -/
namespace JsxTree

namespace Form

variable {α β : Type}

theorem mapMap {γ : Type} (g : β → γ) (f : α → β) (form : Form α) : (form.map f).map g = form.map (g ∘ f) := by
  cases form <;> simp [Form.map, Function.comp_def]

theorem childrenMap (f : α → β) (form : Form α) : (form.map f).children = form.children.map f := by
  cases form with
  | fragment opening closing children => cases children <;> simp [Form.map, children, slots, Slot.nodes, Slot.ofLists]
  | element opening closing children =>
      cases children <;> cases closing <;>
        simp [Form.map, children, slots, Slot.nodes, Slot.ofLists, Slot.ofOption]
  | openingElement name attributes selfClosing =>
      cases attributes <;> simp [Form.map, children, slots, Slot.nodes, Slot.ofLists]
  | jsxAttribute name value => cases value <;> simp [Form.map, children, slots, Slot.nodes, Slot.ofOption]
  | _ => simp [Form.map, children, slots, Slot.nodes]

theorem mapCongr {f g : α → β} {form : Form α} (same : ∀ c ∈ form.children, f c = g c) :
    form.map f = form.map g := by
  cases form with
  | fragment opening closing children =>
      cases children <;> simp_all [Form.map, Form.children, slots, Slot.nodes, Slot.ofLists]
  | element opening closing children =>
      cases children <;> cases closing <;>
        simp_all [Form.map, Form.children, slots, Slot.nodes, Slot.ofLists, Slot.ofOption]
  | openingElement name attributes selfClosing =>
      cases attributes <;> simp_all [Form.map, Form.children, slots, Slot.nodes, Slot.ofLists]
  | jsxAttribute name value =>
      cases value <;> simp_all [Form.map, Form.children, slots, Slot.nodes, Slot.ofOption]
  | _ => simp_all [Form.map, Form.children, slots, Slot.nodes]

theorem mapId (form : Form α) : form.map id = form := by
  cases form <;> simp [Form.map]

end Form

namespace Node

def gather (form : Form (Node × List Node)) (span : Span) : Node × List Node :=
  (⟨form.map Prod.fst, span⟩, ⟨form.map Prod.fst, span⟩ :: form.children.flatMap Prod.snd)

theorem gatherItself (n : Node) : (n.fold gather).1 = n := by
  induction n using inductOn with
  | step n ih =>
      obtain ⟨form, span⟩ := n
      have forms : (form.map (fold gather)).map Prod.fst = form := by
        rw [Form.mapMap]
        exact (Form.mapCongr ih).trans form.mapId
      rw [foldEq]
      simp only [gather, forms]

theorem preorderEq (n : Node) : n.preorder = n :: n.form.children.flatMap preorder := by
  have itself := gatherItself n
  change (n.fold gather).2 = _
  rw [foldEq] at itself ⊢
  simp only [gather] at itself ⊢
  rw [itself, Form.childrenMap, List.flatMap_map]
  rfl

theorem preorderItself (n : Node) : n ∈ n.preorder := by
  rw [preorderEq]
  exact List.mem_cons_self

def Everywhere (P : Node → Prop) (n : Node) : Prop := ∀ m ∈ n.preorder, P m

theorem everywhereIff {P : Node → Prop} {n : Node} :
    n.Everywhere P ↔ P n ∧ ∀ c ∈ n.form.children, c.Everywhere P := by
  simp only [Everywhere]
  rw [preorderEq]
  simp only [List.mem_cons, List.mem_flatMap, forall_eq_or_imp]
  exact and_congr_right fun _ => ⟨fun h c inside m below => h m ⟨c, inside, below⟩,
    fun h m ⟨c, inside, below⟩ => h c inside m below⟩

theorem everywhereOf {P Q : Node → Prop} (step : ∀ n, Q n → P n ∧ ∀ c ∈ n.form.children, Q c) {n : Node}
    (h : Q n) : n.Everywhere P := by
  induction n using inductOn with
  | step n ih =>
      obtain ⟨own, below⟩ := step n h
      exact everywhereIff.mpr ⟨own, fun c inside => ih c inside (below c inside)⟩

end Node

end JsxTree
