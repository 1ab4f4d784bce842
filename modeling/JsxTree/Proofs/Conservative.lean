import JsxTree.Proofs.Completeness
import JsxTree.Proofs.Preorder

/-! Without markup the grammar is that of the ordinary language, and with it an extension of that: what is read of trees
without markup does not depend on whether markup is allowed, and where it is not, no other trees are read. -/
namespace JsxTree

def Kind.isMarkup : Kind → Bool
  | .identifier | .literal | .unary | .binary | .logical | .member | .call => false
  | _ => true

theorem markupNamed (kind : Kind) : kind.isMarkup = "JSX".toList.isPrefixOf kind.typeName.toList := by
  cases kind <;> decide

abbrev Node.Plain : Node → Prop := Node.Everywhere fun n => n.kind.isMarkup = false

section Plain

variable {form : Form Node} {span : Span} {n : Node}

theorem plainOver (ordinary : form.kind.isMarkup = false) :
    Node.Plain ⟨form, span⟩ ↔ ∀ c ∈ form.children, c.Plain :=
  Node.everywhereIff.trans (and_iff_right ordinary)

theorem leafPlain (ordinary : form.kind.isMarkup = false) (childless : form.children = []) :
    Node.Plain ⟨form, span⟩ := by
  rw [plainOver ordinary, childless]
  exact List.forall_mem_nil _

theorem unaryPlain {o : String} {leading : Bool} : Node.Plain ⟨.unary o leading n, span⟩ ↔ n.Plain :=
  (plainOver rfl).trans List.forall_mem_singleton

theorem memberPlain {object property : Node} {computed : Bool} :
    Node.Plain ⟨.member object property computed, span⟩ ↔ object.Plain ∧ property.Plain :=
  (plainOver rfl).trans (List.forall_mem_cons.trans (and_congr_right fun _ => List.forall_mem_singleton))

theorem callPlain {callee : Node} {ns : List Node} :
    Node.Plain ⟨.call callee ns, span⟩ ↔ callee.Plain ∧ ∀ n ∈ ns, n.Plain := by
  rw [plainOver rfl, Grammar.childrenCall, List.forall_mem_cons]

theorem joinPlain (join : Parser.Join) {o : String} {left right : Node} :
    Node.Plain ⟨join.form o left right, span⟩ ↔ left.Plain ∧ right.Plain := by
  cases join with
  | binary => exact (plainOver rfl).trans (List.forall_mem_cons.trans (and_congr_right fun _ => List.forall_mem_singleton))
  | logical => exact (plainOver rfl).trans (List.forall_mem_cons.trans (and_congr_right fun _ => List.forall_mem_singleton))

end Plain

namespace Grammar

open JsxTree.Parser

variable {x : Setting} {ph : Phrase} {m : Mode} {d : Nat} {c c' : Cursor}

def Phrase.Plain : Phrase → Prop
  | .primary n | .suffixes _ n | .chain n | .unary n | .operands _ _ _ n | .ladder _ n => n.Plain
  | .moreArguments ns | .arguments ns => ∀ n ∈ ns, n.Plain
  | .fragment _ | .element _ | .attributeValue _ | .attribute _ | .attributes _ | .child _ | .children _ => False

def Phrase.LeftPlain : Phrase → Prop
  | .suffixes left _ | .operands _ _ left _ => left.Plain
  | _ => True

def Phrase.Expressive : Phrase → Prop
  | .fragment _ | .element _ | .attributeValue _ | .attribute _ | .attributes _ | .child _ | .children _ => False
  | _ => True

theorem Reads.plain (off : x.config.jsx = false) (h : Reads x ph m d c c') (expressive : ph.Expressive)
    (left : ph.LeftPlain) : ph.Plain := by
  induction h with
  | identifier | literal => exact leafPlain rfl rfl
  | parenthesized _ _ _ _ ih | plainUnary _ _ ih | bottom _ ih => exact ih trivial trivial
  | fragmentPrimary allowed | elementPrimary allowed =>
      rw [off] at allowed
      cases allowed
  | noSuffix | noOperand => exact left
  | memberSuffix _ _ _ ih => exact ih trivial (memberPlain.mpr ⟨left, leafPlain rfl rfl⟩)
  | computedSuffix _ _ _ _ _ inside ih => exact ih trivial (memberPlain.mpr ⟨left, inside trivial trivial⟩)
  | callSuffix _ _ _ _ _ inside ih => exact ih trivial (callPlain.mpr ⟨left, inside trivial trivial⟩)
  | chain _ _ first more | level _ _ first more => exact more trivial (first trivial trivial)
  | unary _ _ _ _ ih => exact unaryPlain.mpr (ih trivial trivial)
  | @operand _ _ level _ _ _ _ _ _ _ _ _ _ _ _ _ right more =>
      exact more trivial ((joinPlain level.join).mpr ⟨left, right trivial trivial⟩)
  | noMoreArguments | noArguments => exact List.forall_mem_nil _
  | moreArguments _ _ _ first more | arguments _ _ first more =>
      exact List.forall_mem_cons.mpr ⟨first trivial trivial, more trivial trivial⟩
  | _ => exact expressive.elim

def Phrase.NotPlain : Phrase → Prop
  | .fragment n | .element n => ¬n.Plain
  | _ => True

theorem Reads.markup (h : Reads x ph m d c c') : ph.NotPlain := by
  cases h with
  | fragment | selfClosing | element => exact fun plain => by cases (Node.everywhereIff.mp plain).1
  | _ => trivial

theorem Reads.switched (h : Reads x ph m d c c') (jsx : Bool) (plain : ph.Plain) :
    Reads ⟨⟨x.config.maxDepth, jsx⟩, x.file⟩ ph m d c c' ∧ ph.LeftPlain := by
  -- What stands to the left is plain if the whole is: that comes out of the rest, and goes back to the premises in front.
  induction h with
  | identifier token => exact ⟨.identifier token, trivial⟩
  | literal token value => exact ⟨.literal token value, trivial⟩
  | parenthesized opens room _ closes ih => exact ⟨.parenthesized opens room (ih plain).1 closes, trivial⟩
  | fragmentPrimary _ markup | elementPrimary _ markup => exact absurd plain markup.markup
  | noSuffix stop => exact ⟨.noSuffix stop, plain⟩
  | memberSuffix dot own _ ih =>
      obtain ⟨more, left⟩ := ih plain
      exact ⟨.memberSuffix dot own more, (memberPlain.mp left).1⟩
  | computedSuffix opens room _ closes _ inside ih =>
      obtain ⟨more, left⟩ := ih plain
      obtain ⟨object, property⟩ := memberPlain.mp left
      exact ⟨.computedSuffix opens room (inside property).1 closes more, object⟩
  | callSuffix opens room _ closes _ inside ih =>
      obtain ⟨more, left⟩ := ih plain
      obtain ⟨callee, arguments⟩ := callPlain.mp left
      exact ⟨.callSuffix opens room (inside arguments).1 closes more, callee⟩
  | chain _ _ first ih =>
      obtain ⟨more, left⟩ := ih plain
      exact ⟨.chain (first left).1 more, trivial⟩
  | plainUnary stop _ ih => exact ⟨.plainUnary stop (ih plain).1, trivial⟩
  | unary operator known room _ ih => exact ⟨.unary operator known room (ih (unaryPlain.mp plain)).1, trivial⟩
  | noOperand stop => exact ⟨.noOperand stop, plain⟩
  | @operand _ _ level _ _ _ _ _ _ _ _ _ operator known _ _ first ih =>
      obtain ⟨more, joined⟩ := ih plain
      obtain ⟨left, right⟩ := (joinPlain level.join).mp joined
      exact ⟨.operand operator known (first right).1 more, left⟩
  | bottom _ ih => exact ⟨.bottom (ih plain).1, trivial⟩
  | level _ _ first ih =>
      obtain ⟨more, left⟩ := ih plain
      exact ⟨.level (first left).1 more, trivial⟩
  | noMoreArguments stop => exact ⟨.noMoreArguments stop, trivial⟩
  | moreArguments comma _ _ first ih =>
      obtain ⟨item, others⟩ := List.forall_mem_cons.mp plain
      exact ⟨.moreArguments comma (first item).1 (ih others).1, trivial⟩
  | noArguments closes => exact ⟨.noArguments closes, trivial⟩
  | arguments _ _ first ih =>
      obtain ⟨item, others⟩ := List.forall_mem_cons.mp plain
      exact ⟨.arguments (first item).1 (ih others).1, trivial⟩
  | _ => exact plain.elim

end Grammar

/-- Markup extends the language conservatively: what is accepted without it are the trees that are accepted with it and
have none. -/
theorem markupConservative (source : String) (limit : Nat) (file : Option String) (tree : Node) :
    parse source ⟨limit, false⟩ file = .ok tree ↔
      parse source ⟨limit, true⟩ file = .ok tree ∧ ∀ n ∈ tree.preorder, n.kind.isMarkup = false := by
  rw [Grammar.parseIff, Grammar.parseIff]
  constructor
  · rintro ⟨c', reads, ended⟩
    have plain : tree.Plain := reads.plain rfl trivial trivial
    exact ⟨⟨c', (reads.switched true plain).1, ended⟩, plain⟩
  · rintro ⟨⟨c', reads, ended⟩, plain⟩
    exact ⟨c', (reads.switched false plain).1, ended⟩

end JsxTree
