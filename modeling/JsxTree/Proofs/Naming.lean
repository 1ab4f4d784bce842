import JsxTree.Proofs.Formed
import JsxTree.Proofs.Reread

/-! Names of tags. No part of one has a point or a colon in it, so how a name is written tells its parts: two names are the
same exactly when they are written the same. -/
namespace JsxTree

open Lexeme

variable {a b n : Node} {s t : String}

theorem nameTextEq (form : Form Node) (span : Span) :
    (⟨form, span⟩ : Node).nameText = (form.map Node.nameText).nameText := by
  rw [Node.nameText, Node.foldEq]
  rfl

theorem partApart (token : Whole .jsx (.jsxIdentifier s)) : '.' ∉ s.toList ∧ ':' ∉ s.toList := by
  obtain ⟨f, es, text, start, same⟩ := wordOf token.1 rfl
  have raw : s.toList = f :: es.takeWhile (isWordPart .jsx) := congrArg Lexeme.raw same
  have parts : ∀ e ∈ s.toList, isWordPart .jsx e = true := by
    rw [raw]
    refine List.forall_mem_cons.mpr ⟨?_, ofTakeWhile _ es⟩
    simp [isWordPart, startPart start]
  constructor
  · intro inside
    have part := parts _ inside
    rw [wordPartOther .jsx '.' (by decide)] at part
    cases part
  · intro inside
    have part := parts _ inside
    rw [wordPartOther .jsx ':' (by decide)] at part
    cases part

theorem ownText (s : String) (span : Span) : (⟨.jsxIdentifier s, span⟩ : Node).nameText = some s := by
  rw [nameTextEq]
  rfl

theorem memberText {object : Node} (before : object.nameText = some t) (s : String) (span span' : Span) :
    (⟨.jsxMember object ⟨.jsxIdentifier s, span'⟩, span⟩ : Node).nameText = some (t ++ "." ++ s) := by
  rw [nameTextEq, Form.map, Form.nameText, before, ownText]
  rfl

theorem spacedText (s t : String) (span span' span'' : Span) :
    (⟨.namespacedName ⟨.jsxIdentifier s, span⟩ ⟨.jsxIdentifier t, span'⟩, span''⟩ : Node).nameText = some (s ++ ":" ++ t) := by
  rw [nameTextEq, Form.map, Form.nameText, ownText, ownText]
  rfl

theorem NameChain.written (h : NameChain n) : ∃ s, n.nameText = some s ∧ ':' ∉ s.toList := by
  induction h with
  | own token => exact ⟨_, ownText _ _, (partApart token).2⟩
  | member _ token ih =>
      obtain ⟨t, before, plain⟩ := ih
      exact ⟨_, memberText before _ _ _, by simp [plain, (partApart token).2]⟩

theorem NameFormed.written {chained : Bool} (h : NameFormed chained n) : ∃ s, n.nameText = some s := by
  cases h with
  | simple => exact ⟨_, ownText _ _⟩
  | chain members =>
      obtain ⟨s, text, -⟩ := members.written
      exact ⟨s, text⟩
  | namespaced => exact ⟨_, spacedText _ _ _ _ _⟩

theorem nameTextSpans (n : Node) : n.withoutSpans.nameText = n.nameText := by
  induction n using Node.inductOn with
  | step n below =>
      obtain ⟨form, span⟩ := n
      have parts : form.map (Node.nameText ∘ Node.withoutSpans) = form.map Node.nameText := Form.mapCongr below
      rw [Node.withoutSpansEq, nameTextEq, nameTextEq, Form.mapMap, parts]

theorem Node.Alike.nameText (h : a.Alike b) : a.nameText = b.nameText := by
  rw [← nameTextSpans, ← nameTextSpans b, show a.withoutSpans = b.withoutSpans from h]

theorem NameChain.chars (h : NameChain n) (written : n.nameText = some s) : n.chars = s.toList := by
  induction h generalizing s with
  | own =>
      rw [ownText, Option.some.injEq] at written
      rw [Node.charsJsxIdentifier, written]
  | member before _ ih =>
      obtain ⟨t, text, -⟩ := before.written
      rw [memberText text, Option.some.injEq] at written
      rw [Node.charsJsxMember, Node.charsJsxIdentifier, ih text, ← written]
      simp

theorem NameFormed.chars {chained : Bool} (h : NameFormed chained n) (written : n.nameText = some s) :
    n.chars = s.toList := by
  cases h with
  | simple =>
      rw [ownText, Option.some.injEq] at written
      rw [Node.charsJsxIdentifier, written]
  | chain members => exact members.chars written
  | namespaced =>
      rw [spacedText, Option.some.injEq] at written
      rw [Node.charsNamespaced, Node.charsJsxIdentifier, Node.charsJsxIdentifier, ← written]
      simp

theorem splitLast {e : Char} {as bs as' bs' : List Char} (same : as ++ e :: bs = as' ++ e :: bs') (clear : e ∉ bs)
    (clear' : e ∉ bs') : as = as' ∧ bs = bs' := by
  have last : ∀ {bs bs' xs : List Char}, e :: bs = xs ++ e :: bs' → e ∉ bs → xs = [] := by
    intro bs bs' xs split clear
    cases xs with
    | nil => rfl
    | cons x xs =>
        obtain ⟨-, rest⟩ := List.cons.inj split
        exact absurd (by simp [rest]) clear
  rcases List.append_eq_append_iff.mp same with ⟨xs, before, after⟩ | ⟨xs, before, after⟩
  · cases last after clear
    exact ⟨by simpa using before.symm, (List.cons.inj after).2⟩
  · cases last after clear'
    exact ⟨by simpa using before, (List.cons.inj after).2.symm⟩

theorem NameChain.same (h : NameChain a) (h' : NameChain b) (texts : a.nameText = b.nameText) : a.sameName b = true := by
  induction h generalizing b with
  | @own s span token =>
      cases h' with
      | own =>
          rw [ownText, ownText] at texts
          cases texts
          rw [Node.sameNameEq]
          exact beq_self_eq_true _
      | member before =>
          obtain ⟨t, text, -⟩ := before.written
          rw [ownText, memberText text] at texts
          cases texts
          exact absurd (by simp) (partApart token).1
  | @member object s span span' first token ih =>
      obtain ⟨t, text, -⟩ := first.written
      cases h' with
      | own token' =>
          rw [memberText text, ownText] at texts
          cases texts
          exact absurd (by simp) (partApart token').1
      | @member object' s' _ _ before token' =>
          obtain ⟨t', text', -⟩ := before.written
          rw [memberText text, memberText text', Option.some.injEq, ← String.toList_inj] at texts
          simp only [String.toList_append, List.append_assoc] at texts
          obtain ⟨front, back⟩ := splitLast (e := '.') texts (partApart token).1 (partApart token').1
          have objects : object.sameName object' = true :=
            ih before (by rw [text, text', String.toList_inj.mp front])
          rw [Node.sameNameEq]
          simp only [Form.map, Form.sameName, objects, Node.sameNameEq, String.toList_inj.mp back, beq_self_eq_true,
            Bool.and_self]

theorem NameChain.unspaced (h : NameChain n) {span span' span'' : Span} :
    n.nameText ≠ (⟨.namespacedName ⟨.jsxIdentifier s, span⟩ ⟨.jsxIdentifier t, span'⟩, span''⟩ : Node).nameText := by
  obtain ⟨text, written, plain⟩ := h.written
  rw [written, spacedText]
  intro same
  cases same
  exact absurd (by simp) plain

theorem NameFormed.same (h : NameFormed true a) (h' : NameFormed true b) (texts : a.nameText = b.nameText) :
    a.sameName b = true := by
  cases h with
  | chain members =>
      cases h' with
      | chain members' => exact members.same members' texts
      | namespaced => exact absurd texts members.unspaced
  | namespaced _ own =>
      cases h' with
      | chain members => exact absurd texts.symm members.unspaced
      | namespaced _ own' =>
          rw [spacedText, spacedText, Option.some.injEq, ← String.toList_inj] at texts
          simp only [String.toList_append, List.append_assoc] at texts
          obtain ⟨front, back⟩ := splitLast (e := ':') texts (partApart own).2 (partApart own').2
          rw [Node.sameNameEq]
          simp only [Form.map, Form.sameName, Node.sameNameEq, String.toList_inj.mp front, String.toList_inj.mp back,
            beq_self_eq_true, Bool.and_self]

end JsxTree
