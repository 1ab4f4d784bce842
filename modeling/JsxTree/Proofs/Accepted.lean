import JsxTree.Command.Outcome
import JsxTree.Proofs.Carried
import JsxTree.Proofs.Indented

/-! Which files are accepted, and which of the others can be reported. The name of a file is in the spans of its tree and in
the reports on it, and has no part in whether there is a tree. -/
namespace JsxTree

def Passage.same : Passage where
  rel c b := c = b
  spares _ := True
  ends c := ∀ m, c.next? m = none
  token := by
    rintro m k c c' _ rfl next - -
    exact ⟨c', next, rfl⟩
  text := by
    rintro raw c c' _ rfl run -
    exact ⟨c', run, rfl⟩
  bare := by
    rintro c _ rfl textless -
    exact textless
  nothing := by
    rintro m c _ rfl ends
    exact ends m

section Names

open Grammar

variable {source : String} {config : Config} {file : Option String} {n : Node}

theorem parseRenamed (accepted : parse source config file = .ok n) (again : Option String) :
    ∃ z, parse source config again = .ok z ∧ z.Alike n := by
  obtain ⟨c', reads, ends⟩ := (parseIff source config file n).mp accepted
  obtain ⟨items, spelled⟩ := reads.spelled
  have nothing : ∀ m, c'.next? m = none := fun m => Cursor.nextNone.mpr (Cursor.nextNone.mp ends)
  obtain ⟨z, b', rfl, alike, again'⟩ := Spells.carried (w := .same) spelled again (Nat.le_refl 0)
    (fun _ _ => trivial) rfl (.inl nothing)
  exact ⟨z, (parseIff source config again z).mpr ⟨_, again', ends⟩, alike⟩

theorem acceptedAgain (file again : Option String) :
    (∃ n, parse source config file = .ok n) ↔ ∃ n, parse source config again = .ok n := by
  constructor
  · rintro ⟨n, accepted⟩
    obtain ⟨z, accepted', -⟩ := parseRenamed accepted again
    exact ⟨z, accepted'⟩
  · rintro ⟨n, accepted⟩
    obtain ⟨z, accepted', -⟩ := parseRenamed accepted file
    exact ⟨z, accepted'⟩

end Names

namespace Command

/-- They can be read, are UTF-8 and are accepted within a limit on depth. -/
def Accepted (maxDepth : Nat) (contents : Contents) : Prop :=
  ∃ bytes source n, contents = .ok bytes ∧ String.fromUTF8? bytes = some source ∧ parse source { maxDepth } none = .ok n

variable {directory path : Path} {maxDepth : Nat} {contents : Contents} {source : String}

theorem textOfIff : textOf contents = .ok source ↔ ∃ bytes, contents = .ok bytes ∧ String.fromUTF8? bytes = some source := by
  cases contents with
  | error reason => simp [textOf]
  | ok bytes =>
      rw [textOf]
      cases read : String.fromUTF8? bytes with
      | none => simp [read]
      | some text => simp [read]

theorem treeIff : (∃ n, treeOf directory maxDepth path contents = .ok n) ↔ Accepted maxDepth contents := by
  cases text : textOf contents with
  | error reason =>
      have unread : ¬Accepted maxDepth contents := by
        rintro ⟨bytes, source, n, own, read, -⟩
        rw [textOfIff.mpr ⟨bytes, own, read⟩] at text
        cases text
      simp [treeOf, text, unread]
  | ok source =>
      obtain ⟨bytes, rfl, read⟩ := textOfIff.mp text
      have judged : Accepted maxDepth (.ok bytes) ↔ ∃ n, parse source { maxDepth } none = .ok n := by
        simp [Accepted, read]
      rw [judged, acceptedAgain none (some (path.relativeTo directory).toString), treeOf, text]
      dsimp only
      cases parse source { maxDepth } (some (path.relativeTo directory).toString) <;> simp

instance (maxDepth : Nat) (contents : Contents) : Decidable (Accepted maxDepth contents) :=
  decidable_of_iff ((treeOf ⟨[]⟩ maxDepth ⟨[]⟩ contents).toOption.isSome = true) <| by
    rw [← treeIff]
    cases treeOf ⟨[]⟩ maxDepth ⟨[]⟩ contents <;> simp [Except.toOption]

/-- What keeps the file from being accepted can be reported: no excerpt has its mark too far to the right. -/
def Narrow (directory : Path) (maxDepth : Nat) (path : Path) (contents : Contents) : Prop :=
  ∀ source e, textOf contents = .ok source →
    parse source { maxDepth } (some (path.relativeTo directory).toString) = .error (.error e) → e.Narrow source

theorem narrowAccepted (accepted : Accepted maxDepth contents) : Narrow directory maxDepth path contents := by
  intro source e text failed
  obtain ⟨n, tree⟩ : ∃ n, treeOf directory maxDepth path contents = .ok n := treeIff.mpr accepted
  rw [treeOf, text] at tree
  dsimp only at tree
  rw [failed] at tree
  cases tree

theorem treeRejected (text : textOf contents = .ok source) (rejected : ¬Accepted maxDepth contents) :
    ∃ e, treeOf directory maxDepth path contents = .error (.rejected source (.error e)) ∧
      (e.Narrow source ↔ Narrow directory maxDepth path contents) := by
  have treeless : ¬∃ n, treeOf directory maxDepth path contents = .ok n := fun tree => rejected (treeIff.mp tree)
  have ended := Grammar.parseReads source { maxDepth } (some (path.relativeTo directory).toString)
  rw [treeOf, text] at treeless ⊢
  dsimp only at treeless ⊢
  cases outcome : parse source { maxDepth } (some (path.relativeTo directory).toString) with
  | ok n => exact absurd ⟨n, by rw [outcome]⟩ treeless
  | error halt =>
      rw [outcome] at ended
      cases halt with
      | exhausted | misshapen => exact ended.elim
      | error e =>
          refine ⟨e, rfl, fun narrow source' e' text' failed => ?_, fun narrow => narrow source e text outcome⟩
          obtain rfl := Except.ok.inj (text.symm.trans text')
          rw [outcome] at failed
          cases failed
          exact narrow

section Wide

theorem utf8Read (s : String) : String.fromUTF8? s.toUTF8 = some s := dif_pos s.isValidUTF8

theorem indentedTree (directory path : Path) (maxDepth n : Nat) :
    treeOf directory maxDepth path (.ok (indented n).toUTF8) = .error (.rejected (indented n)
      (.error (strayError (List.replicate n ' ') (some (path.relativeTo directory).toString)))) := by
  have text : textOf (.ok (indented n).toUTF8) = .ok (indented n) := textOfIff.mpr ⟨_, rfl, utf8Read _⟩
  have refused := Parser.strayRefused (spacesBlank n) { maxDepth } (some (path.relativeTo directory).toString)
  rw [treeOf, text]
  dsimp only
  rw [indented, refused]

theorem indentedRejected (maxDepth n : Nat) : ¬Accepted maxDepth (.ok (indented n).toUTF8) := by
  intro accepted
  obtain ⟨tree, made⟩ : ∃ tree, treeOf ⟨[]⟩ maxDepth ⟨[]⟩ (.ok (indented n).toUTF8) = .ok tree := treeIff.mpr accepted
  rw [indentedTree] at made
  cases made

theorem indentedBeyond {n : Nat} (far : 0x10000 ≤ n) (directory path : Path) (maxDepth : Nat) :
    ¬Narrow directory maxDepth path (.ok (indented n).toUTF8) := by
  intro narrow
  obtain ⟨text, reported⟩ := ParseError.reportNarrow.mpr <|
    narrow (indented n) _ (textOfIff.mpr ⟨_, rfl, utf8Read _⟩) (Parser.strayRefused (spacesBlank n) _ _)
  rw [indentedWide far] at reported
  cases reported

end Wide

end Command

end JsxTree
