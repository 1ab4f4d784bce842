import JsxTree.Proofs.Tags

/-! Trees whose normal form is read back as the tree. What is read may have been parsed, or not: any tree
will do that has the shape the grammar gives and needs no parentheses its normal form has not. -/
namespace JsxTree

namespace Grammar

open JsxTree.Parser

def Restores (x : Setting) (n : Node) : Role → Prop
  | .expression => (n.kind ≠ .unary → Opener x n) ∧ Operand x n
  | .markup m => Tagged x m n
  | .value => Assigned x n
  | .attribute => Attributed x n
  | .child => Held x n

theorem Opener.restores {x : Setting} {n : Node} (h : Opener x n) : Restores x n .expression := ⟨fun _ => h, h.operand⟩

end Grammar

open Grammar

theorem Formed.restores {x : Parser.Setting} {role : Role} {n : Node} (h : Formed role n)
    (allowed : x.config.jsx = true) : Restores x n role := by
  -- An operand keeps what is read first of it apart from its suffixes, so that it can be extended as an object or a callee.
  induction h with
  | identifier token => exact (openerIdentifier token).restores
  | literal token value => exact (openerLiteral token value).restores
  | unary known formed ih => exact ⟨fun plain => absurd rfl plain, operandUnary known formed ih.2⟩
  | join known? known formedLeft formedRight left right =>
      exact (openerJoin known? known left.2 right.2 formedLeft formedRight).restores
  | member _ token ih => exact (openerMember ih.1 token).restores
  | computed _ formed ih inside => exact (openerComputed ih.1 inside.2 formed).restores
  | call _ formed ih inside => exact (openerCall ih.1 formed fun n member => (inside n member).2).restores
  | expressionMarkup formed ih => exact (openerMarkup allowed formed ih).restores
  | fragment formed apart stands ih => exact taggedFragment formed apart stands ih
  | selfClosing name formed ih => exact taggedSelfClosing name formed ih
  | element name formedAll formed apart closingName same ih ih' =>
      exact taggedElement name formedAll formed apart closingName same ih ih'
  | stringValue token => exact assignedString token
  | containerValue formed ih => exact assignedContainer ih.2 formed
  | markupValue _ ih => exact assignedMarkup ih
  | spreadAttribute formed ih => exact attributedSpread ih.2 formed
  | plainAttribute name => exact attributedPlain name
  | valuedAttribute name formed ih => exact attributedValue name formed ih
  | text nonempty plain => exact heldText nonempty plain
  | markupChild formed ih => exact heldMarkup formed ih
  | emptyChild => exact heldEmpty
  | containerChild formed ih => exact heldContainer ih.2 formed
  | spreadChild formed ih => exact heldSpread ih.2 formed

theorem Formed.rereads {n : Node} {config : Config} (h : Formed .expression n) (allowed : config.jsx = true)
    (fits : n.Fits config.maxDepth 0) (file : Option String) : ∃ z, parse n.source config file = .ok z ∧ z.Alike n := by
  have restores := h.restores (x := ⟨config, file⟩) allowed
  have behind : (Cursor.start n.source).rest = n.chars ++ [] := (List.append_nil _).symm
  obtain ⟨z, b, rest, alike, reads⟩ := restores.2.expression (c := .start n.source) fits
    (by rw [formedSolid h (by simp) behind, behind]) (.inl rfl)
  have nothing : b.next? .script = none := by
    rw [Cursor.nextNone, Cursor.skipSolid (by rw [rest]; rfl), rest]
  exact ⟨z, (parseIff n.source config file z).mpr ⟨b, reads, nothing⟩, alike⟩

section Accepted

/-- What is read and written in normal form is read again under the default settings, as the same tree, where that form
is faithful: no sign gets to stand right before the same sign, no suffix falls to the argument of a sign and no
point to a number, and the parentheses gained do not go too deep. -/
theorem parseRereads {source : String} {config : Config} {file : Option String} {n : Node}
    (accepted : parse source config file = .ok n) (faithful : n.faithful ({} : Config).maxDepth = true)
    (again : Option String) : ∃ z, parse n.source {} again = .ok z ∧ z.Alike n :=
  (parseFormed accepted).rereads rfl (Node.faithfulIff.mp faithful) again

theorem parseRereadsGrouped : ∃ n, parse "(-a + b.c) * 2" {} none = .ok n ∧ n.faithful ({} : Config).maxDepth = true ∧
    ∃ z, parse n.source {} none = .ok z ∧ z.Alike n := by
  obtain ⟨n, accepted, faithful⟩ : ∃ n, parse "(-a + b.c) * 2" {} none = .ok n ∧
      n.faithful ({} : Config).maxDepth = true := Parser.acceptedOf (by decide +kernel)
  exact ⟨n, accepted, faithful, parseRereads accepted faithful none⟩

theorem normalFormUnread : ¬∀ (source : String) (n : Node), parse source {} none = .ok n →
    ∃ z, parse n.source {} none = .ok z ∧ z.Alike n := by
  intro all
  obtain ⟨n, accepted, glued⟩ : ∃ n, parse "- -a" {} none = .ok n ∧ (n.source == "--a") = true :=
    Parser.acceptedOf (by decide +kernel)
  have refused : (parse "--a" {} none).toOption.isNone = true := by decide +kernel
  obtain ⟨z, again, -⟩ := all _ n accepted
  rw [eq_of_beq glued] at again
  rw [again] at refused
  cases refused

end Accepted

end JsxTree
