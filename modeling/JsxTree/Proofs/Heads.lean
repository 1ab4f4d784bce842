import JsxTree.Proofs.Faithful
import JsxTree.Proofs.Printed

/-! What texts in normal form begin with, and the tokens that a cursor finds in front of one. -/
namespace JsxTree

namespace Lexeme

variable {m : Mode} {cs tail ms : List Char} {k : Token.Kind}

def Starts (ms cs : List Char) : Prop :=
  ∃ e es, cs = e :: es ∧ Trivia.isBlank e = false ∧ e ∉ ms ∧ (e = '.' → startsNumber cs = true)

def marks : List Char := "=/)]\x7d:>,(<\x7b+-!~".toList

def closers : List Char := "=/)]\x7d:>,".toList

theorem Starts.weaken {fewer : List Char} (h : Starts ms cs) (weaker : ∀ e ∈ fewer, e ∈ ms) : Starts fewer cs := by
  obtain ⟨e, es, rfl, solid, other, point⟩ := h
  exact ⟨e, es, rfl, solid, fun inside => other (weaker e inside), point⟩

theorem Starts.append (h : Starts ms cs) (tail : List Char) : Starts ms (cs ++ tail) := by
  obtain ⟨e, es, rfl, solid, other, point⟩ := h
  refine ⟨e, es ++ tail, rfl, solid, other, ?_⟩
  rintro rfl
  have number := point rfl
  cases es with
  | nil => cases number
  | cons f fs => exact number

theorem Starts.solid (h : Starts ms cs) (slash : '/' ∈ ms) : Trivia.splitPiece cs = none := by
  obtain ⟨e, es, rfl, blank, other, -⟩ := h
  exact splitPieceNone blank fun same => other (same ▸ slash)

theorem wholeStarts (whole : Whole m k) (other : ∀ o, k ≠ .punctuator o) : Starts marks k.text.toList := by
  obtain ⟨next, valid⟩ := whole
  obtain bad | ⟨f, es, text, start, -⟩ | ⟨-, number, -⟩ | ⟨q, es, text, quote, -⟩ | ⟨f, es, -, same⟩ := nextCases next
  · rw [valid] at bad
    cases bad
  · have others := startOther start
    rw [text]
    refine ⟨f, es, rfl, startUnblank start, fun inside => ?_, fun point => absurd point (others '.' (by decide))⟩
    have known : ∀ e ∈ marks, e ∈ "/.\"'0123456789 ()[]<>\x7b\x7d,=!-+~:".toList := Text.every (by decide)
    exact others f (known f inside) rfl
  · have lead := (numberLead number).append (splitNumber k.text.toList).2
    rw [← splitNumberSplits] at lead
    obtain ⟨d, ds, text, digit⟩ | ⟨d, ds, text, digit⟩ := lead
    · have known : ∀ e ∈ marks, e.isDigit = false := Text.every (by decide)
      refine ⟨d, ds, text, digitUnblank digit, fun inside => ?_, fun _ => number⟩
      rw [known d inside] at digit
      cases digit
    · exact ⟨'.', d :: ds, text, by decide, by decide, fun _ => number⟩
  · rw [text]
    rw [Bool.or_eq_true, beq_iff_eq, beq_iff_eq] at quote
    obtain rfl | rfl := quote <;>
      exact ⟨_, es, rfl, by decide, by decide, fun same => absurd same (by decide)⟩
  · obtain bad | ⟨o, -, punctuator⟩ := punctuatorKind m f es
    · rw [← same, valid] at bad
      cases bad
    · rw [punctuator] at same
      exact absurd (congrArg Lexeme.kind same) (other o)

theorem stringQuoted {raw : String} (token : Whole m (.stringLiteral raw)) :
    ∃ q es, raw.toList = q :: es ∧ isDecimalPart q = false := by
  obtain bad | ⟨f, es, -, -, same⟩ | ⟨-, -, same⟩ | ⟨q, es, text, quote, -⟩ | ⟨f, es, -, same⟩ := nextCases token.1
  · cases bad
  · have kind : Token.Kind.stringLiteral raw = wordKind m _ := congrArg Lexeme.kind same
    have word := wordIsWord m (String.ofList (f :: es.takeWhile (isWordPart m)))
    rw [← kind] at word
    cases word
  · obtain bad | kind := numberKind raw.toList
    · rw [show raw.toList = (Token.Kind.stringLiteral raw).text.toList from rfl, ← same] at bad
      cases bad
    · rw [show raw.toList = (Token.Kind.stringLiteral raw).text.toList from rfl, ← same] at kind
      cases kind
  · rw [Bool.or_eq_true, beq_iff_eq, beq_iff_eq] at quote
    obtain rfl | rfl := quote <;> exact ⟨_, es, text, by decide⟩
  · obtain bad | ⟨o, -, kind⟩ := punctuatorKind m f es
    · rw [← same] at bad
      cases bad
    · rw [← same] at kind
      cases kind

end Lexeme

section Nodes

open Lexeme

variable {m : Mode} {n : Node}

theorem NameChain.starts (h : NameChain n) : Starts marks n.chars := by
  induction h with
  | own token =>
      rw [Node.charsJsxIdentifier]
      exact wholeStarts token fun _ same => by cases same
  | member _ _ ih =>
      rw [Node.charsJsxMember]
      exact ih.append _

theorem NameFormed.starts {chained : Bool} (h : NameFormed chained n) : Starts marks n.chars := by
  cases h with
  | simple token =>
      rw [Node.charsJsxIdentifier]
      exact wholeStarts token fun _ same => by cases same
  | chain members => exact members.starts
  | namespaced space _ =>
      rw [Node.charsNamespaced, Node.charsJsxIdentifier]
      exact (wholeStarts space fun _ same => by cases same).append _

theorem startsHere {e : Char} (es : List Char) (plain : e ∉ closers ∧ Trivia.isBlank e = false ∧ e ≠ '.') :
    Starts closers (e :: es) := ⟨e, es, rfl, plain.2.1, plain.1, fun point => absurd point plain.2.2⟩

theorem openersPlain : ∀ e ∈ ['!', '-', '+', '~', '(', '<', '\x7b'], e ∉ closers ∧ Trivia.isBlank e = false ∧ e ≠ '.' :=
  Text.every (by decide)

theorem Formed.starts {role : Role} (h : Formed role n) (textless : role ≠ .child) : Starts closers n.chars := by
  have fewer : ∀ {cs : List Char}, Starts marks cs → Starts closers cs := fun starts =>
    starts.weaken (Text.every (by decide))
  induction h with
  | identifier token =>
      rw [Node.charsIdentifier]
      exact fewer (wholeStarts token fun _ same => by cases same)
  | literal token value =>
      rw [Node.charsLiteral]
      refine fewer (wholeStarts token ?_)
      rintro _ rfl
      cases value
  | unary known =>
      rw [Node.charsUnary]
      simp only [Grammar.prefixOperators, List.mem_cons, List.not_mem_nil, or_false] at known
      obtain rfl | rfl | rfl | rfl := known <;> exact startsHere _ (openersPlain _ (by decide))
  | join =>
      rw [Node.charsJoin]
      exact startsHere _ (openersPlain _ (by decide))
  | member _ _ ih =>
      rw [Node.charsMember]
      exact (ih textless).append _
  | computed _ _ ih _ =>
      rw [Node.charsComputed]
      exact (ih textless).append _
  | call _ _ ih _ =>
      rw [Node.charsCall]
      exact (ih textless).append _
  | expressionMarkup _ ih | markupValue _ ih => exact ih (by simp)
  | fragment =>
      rw [Node.charsFragment]
      exact startsHere _ (openersPlain _ (by decide))
  | selfClosing =>
      rw [Node.charsSelfClosing]
      exact startsHere _ (openersPlain _ (by decide))
  | element =>
      rw [Node.charsElement]
      exact startsHere _ (openersPlain _ (by decide))
  | stringValue token =>
      rw [Node.charsLiteral]
      exact fewer (wholeStarts token fun _ same => by cases same)
  | containerValue =>
      rw [Node.charsContainer]
      exact startsHere _ (openersPlain _ (by decide))
  | spreadAttribute =>
      rw [Node.charsSpreadAttribute]
      exact startsHere _ (openersPlain _ (by decide))
  | plainAttribute name =>
      rw [Node.charsPlainAttribute]
      exact fewer name.starts
  | valuedAttribute name =>
      rw [Node.charsValuedAttribute]
      exact (fewer name.starts).append _
  | text | markupChild | emptyChild | containerChild | spreadChild => exact absurd rfl textless

theorem taggedFirst (h : Formed (.markup m) n) : ∃ es, n.chars = '<' :: es := by
  cases h with
  | fragment => exact ⟨_, Node.charsFragment⟩
  | selfClosing => exact ⟨_, Node.charsSelfClosing⟩
  | element => exact ⟨_, Node.charsElement⟩

theorem Formed.signed {e : Char} {role : Role} (h : Formed role n) (own : role = .expression) (sign : e = '+' ∨ e = '-')
    (lead : n.chars.head? = some e) (apart : n.Everywhere (Node.separable · = true)) :
    ∃ o a, n.form = .unary o true a ∧ o.toList = [e] := by
  have spared : e ∈ marks ∧ e ≠ '(' ∧ e ≠ '<' := by obtain rfl | rfl := sign <;> decide
  have absent : ∀ {cs : List Char}, Starts marks cs → cs.head? = some e → False := by
    rintro _ ⟨e', es, rfl, -, other, -⟩ same
    cases same
    exact other spared.1
  -- With suffixes the sign would stand in front of the object, but no object is signed.
  have suffixed : ∀ {object : Node} {tail : List Char}, Formed .expression object → (object.chars ++ tail).head? = some e →
      object.kind ≠ .unary → (object.chars.head? = some e → ∃ o a, object.form = .unary o true a ∧ o.toList = [e]) → False := by
    intro object tail formed lead plain signed
    obtain ⟨e', es, text, -⟩ := formed.starts (by simp)
    obtain ⟨o, a, form, -⟩ := signed (by rwa [text] at lead ⊢)
    exact plain (by rw [Node.kind, form]; rfl)
  induction h with
  | identifier token =>
      rw [Node.charsIdentifier] at lead
      exact (absent (wholeStarts token fun _ same => by cases same) lead).elim
  | literal token value =>
      rw [Node.charsLiteral] at lead
      refine (absent (wholeStarts token ?_) lead).elim
      rintro _ rfl
      cases value
  | @unary o a _ known =>
      rw [Node.charsUnary] at lead
      refine ⟨o, a, rfl, ?_⟩
      simp only [Grammar.prefixOperators, List.mem_cons, List.not_mem_nil, or_false] at known
      obtain rfl | rfl | rfl | rfl := known <;> (cases lead; rfl)
  | join =>
      rw [Node.charsJoin] at lead
      cases lead
      exact absurd rfl spared.2.1
  | @member object _ _ _ formed _ ih =>
      rw [Node.charsMember] at lead
      obtain ⟨own, below⟩ := Node.everywhereIff.mp apart
      have plain : object.kind ≠ .unary ∧ object.endsDecimal = false := by simpa [Node.separable] using own
      exact (suffixed formed lead plain.1 fun first => ih rfl first (List.forall_mem_cons.mp below).1).elim
  | @computed object _ _ formed _ ih _ =>
      rw [Node.charsComputed] at lead
      obtain ⟨own, below⟩ := Node.everywhereIff.mp apart
      have plain : object.kind ≠ .unary := by simpa [Node.separable] using own
      exact (suffixed formed lead plain fun first => ih rfl first (List.forall_mem_cons.mp below).1).elim
  | @call object _ _ formed _ ih _ =>
      rw [Node.charsCall] at lead
      obtain ⟨own, below⟩ := Node.everywhereIff.mp apart
      have plain : object.kind ≠ .unary := by simpa [Node.separable] using own
      exact (suffixed formed lead plain fun first => ih rfl first (List.forall_mem_cons.mp below).1).elim
  | expressionMarkup tagged =>
      obtain ⟨es, text⟩ := taggedFirst tagged
      rw [text] at lead
      cases lead
      exact absurd rfl spared.2.2
  | _ => cases own

theorem prefixRuns {o : String} (known : o ∈ Grammar.prefixOperators) {e : Char}
    (runs : runsOn .script (.punctuator o) e = true) : e = '=' ∨ Node.doubles o = true ∧ o.toList = [e] := by
  have all : ∀ o ∈ Grammar.prefixOperators,
      (followers .script o).all (fun e => e = '=' ∨ Node.doubles o = true ∧ o.toList = [e]) = true := by decide
  have others : ∀ o ∈ Grammar.prefixOperators, (o == "/") = false ∧ (o == ".") = false := by decide
  refine Text.every (all o known) e ?_
  simpa [runsOn, others o known] using runs

end Nodes

namespace Cursor

open Lexeme

variable {m : Mode} {c : Cursor} {k : Token.Kind} {o : String} {cs tail : List Char}

theorem skipSolid (solid : Trivia.splitPiece c.rest = none) : c.skip = c := by
  simp [skip, Trivia.splitStop solid, Trivia.raw, Place.pastNil]

theorem skipBlank (behind : c.rest = ' ' :: cs) (solid : Trivia.splitPiece cs = none) : c.skip.rest = cs := by
  have blank : Trivia.splitPiece (' ' :: cs) = some (.blank ' ', cs) := rfl
  simp only [skip, behind, Trivia.splitMore blank, Trivia.splitStop solid]

theorem nextWhole (whole : Whole m k) (stop : Avoids (runsOn m k) tail) (front : c.skip.rest = k.text.toList ++ tail) :
    ∃ c', c.next? m = some (k, c') ∧ c'.rest = tail := by
  have next := (whole.next stop).2
  rw [← front] at next
  exact ⟨⟨c.skip.place.past k.text.toList, tail⟩, by simp only [next?, next, Option.map_some], rfl⟩

theorem takesAt (known : o ∈ punctuators m) (stop : Avoids (runsOn m (.punctuator o)) tail)
    (front : c.skip.rest = o.toList ++ tail) : ∃ c', c.Takes m o c' ∧ c'.rest = tail := by
  have next := (nextPunctuator known stop).2
  rw [← front] at next
  exact ⟨⟨c.skip.place.past o.toList, tail⟩, by simp only [Cursor.Takes, next?, next, Option.map_some], rfl⟩

theorem takesHere (known : o ∈ punctuators m) (stop : Avoids (runsOn m (.punctuator o)) tail)
    (front : c.rest = o.toList ++ tail) : ∃ c', c.Takes m o c' ∧ c'.rest = tail := by
  have solid := (nextPunctuator known stop).1
  rw [← front] at solid
  exact takesAt known stop (by rw [skipSolid solid, front])

theorem takesFree (free : Free m o) (front : c.rest = o.toList ++ tail) : ∃ c', c.Takes m o c' ∧ c'.rest = tail :=
  takesHere free.1 (free.stop tail) front

end Cursor

end JsxTree
