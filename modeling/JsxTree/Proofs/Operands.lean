import JsxTree.Proofs.Reread

/-! Expressions in normal form, read back as operands: what no sign begins is read first and goes on with
any suffixes, and what is closed behind is the whole expression. -/
namespace JsxTree

namespace Node

open Lexeme

structure Parts (n : Node) (tail : List Char) : Prop where
  word : Avoids isIdentifierPart tail
  point : n.endsDecimal = true → Avoids (· == '.') tail

theorem partsFirst {n : Node} {e : Char} (tail : List Char) (plain : isIdentifierPart e = false ∧ e ≠ '.') :
    n.Parts (e :: tail) := ⟨avoidsCons plain.1, fun _ => avoidsCons (by simp [plain.2])⟩

end Node

namespace Grammar

open Cursor Lexeme JsxTree.Parser

variable {x : Setting} {m : Mode} {d : Nat} {b c : Cursor} {n a l r object property : Node} {ns as : List Node}
  {o s : String} {k : Token.Kind} {tail more : List Char} {span span' : Span} {level : Level}

def Restored (x : Setting) (phrase : Node → Phrase) (m : Mode) (d : Nat) (n : Node) (c : Cursor)
    (tail : List Char) : Prop := ∃ z b, b.rest = tail ∧ z.Alike n ∧ Reads x (phrase z) m d c b

def suffixMarks : List String := [".", "[", "("]

section Closing

def closings : List Char := [')', ']', '}', ',']

def Closing (tail : List Char) : Prop := tail = [] ∨ ∃ e more, e ∈ closings ∧ tail = e :: more

theorem closingFirst {e : Char} (known : e ∈ closings) (more : List Char) : Closing (e :: more) := .inr ⟨e, more, known, rfl⟩

theorem Closing.parts (h : Closing tail) : n.Parts tail := by
  have plain : ∀ e ∈ closings, isIdentifierPart e = false ∧ e ≠ '.' := Text.every (by decide)
  obtain rfl | ⟨e, more, known, rfl⟩ := h
  · exact ⟨avoidsNil, fun _ => avoidsNil⟩
  · exact Node.partsFirst more (plain e known)

theorem Closing.stops (h : Closing tail) (behind : b.rest = tail) {ps : List String}
    (apart : ∀ e ∈ closings, ∀ p ∈ ps, p.toList.head? ≠ some e) : b.Stops ps .script := by
  have solid : ∀ e ∈ closings, Trivia.isBlank e = false ∧ e ≠ '/' := Text.every (by decide)
  obtain rfl | ⟨e, more, known, rfl⟩ := h
  · refine stopsNothing (Cursor.nextNone.mpr ?_)
    rw [skipSolid (by rw [behind]; rfl), behind]
  · exact stopsHere (solid e known) behind (apart e known)

theorem Closing.levels (h : Closing tail) (behind : b.rest = tail) : ∀ level ∈ levels, b.Stops level.operators .script := by
  have apart : ∀ level ∈ Grammar.levels,
      closings.all (fun e => ∀ p ∈ level.operators, p.toList.head? ≠ some e) = true := by decide
  exact fun level member => h.stops behind (Text.every (apart level member))

end Closing

section Operands

def Opens (x : Setting) (d : Nat) (n : Node) (c : Cursor) (tail : List Char) : Prop :=
  c.Stops prefixOperators .script ∧ ∃ object b, b.rest = tail ∧ object.Alike n ∧
    ∀ z c', Reads x (.suffixes object z) .script d b c' → Reads x (.chain z) .script d c c'

def Opener (x : Setting) (n : Node) : Prop := ∀ ⦃d c tail⦄, n.Fits x.config.maxDepth d →
  c.skip.rest = n.chars ++ tail → n.Parts tail → Opens x d n c tail

def Operand (x : Setting) (n : Node) : Prop := ∀ ⦃d c tail⦄, n.Fits x.config.maxDepth d →
  c.skip.rest = n.chars ++ tail → n.Parts tail → (∀ b : Cursor, b.rest = tail → b.Stops suffixMarks .script) →
  Restored x .unary .script d n c tail

theorem Opener.operand (h : Opener x n) : Operand x n := by
  intro d c tail fits front parts stop
  obtain ⟨signless, object, b, rest, alike, reads⟩ := h fits front parts
  exact ⟨object, b, rest, alike, .plainUnary signless (reads object b (.noSuffix (stop b rest)))⟩

theorem Operand.expression (h : Operand x n) (fits : n.Fits x.config.maxDepth d) (front : c.skip.rest = n.chars ++ tail)
    (closing : Closing tail) : Restored x .expression .script d n c tail := by
  obtain ⟨z, b, rest, alike, reads⟩ := h fits front closing.parts fun b behind => closing.stops behind (Text.every (by decide))
  exact ⟨z, b, rest, alike, readsLadder reads (closing.levels rest)⟩

theorem formedSolid {role : Role} (h : Formed role n) (textless : role ≠ .child) (behind : c.rest = n.chars ++ tail) :
    c.skip = c := by
  have starts := (h.starts textless).append tail
  exact skipSolid (by rw [behind]; exact starts.solid (by decide))

end Operands

section Primary

theorem opensToken (next : c.next? .script = some (k, b)) (plain : ∀ o, k ≠ .punctuator o) (rest : b.rest = tail)
    (alike : object.Alike n) (reads : Reads x (.primary object) .script d c b) : Opens x d n c tail :=
  ⟨stopsOf next fun o _ => plain o, object, b, rest, alike, fun _ _ more => .chain reads more⟩

theorem openerIdentifier (token : Whole .script (.identifier s)) : Opener x ⟨.identifier s, span⟩ := by
  intro d c tail _ front parts
  rw [Node.charsIdentifier] at front
  have stop : Avoids (runsOn .script (.identifier s)) tail :=
    parts.word.weaken fun e other => by simp [runsOn, isWordPart, other]
  obtain ⟨b, next, rest⟩ := nextWhole token stop front
  exact opensToken next (fun _ same => by cases same) rest (Node.alikeForms.mpr rfl) (.identifier next)

theorem openerLiteral {v : Value} (token : Whole .script k) (value : literalValue? k = some v) :
    Opener x ⟨.literal v k.text, span⟩ := by
  intro d c tail _ front parts
  rw [Node.charsLiteral] at front
  have point : k.text.toList.all isDecimalPart = true → Avoids (· == '.') tail := parts.point
  have stop : Avoids (runsOn .script k) tail := by
    cases k with
    | numericLiteral raw =>
        intro e head
        have word := parts.word e head
        cases decimal : raw.toList.all isDecimalPart with
        | false => simp [runsOn, word, decimal]
        | true =>
            have other := point decimal e head
            simp only [runsOn, word, other, Bool.false_and, Bool.false_or]
    | stringLiteral => exact fun _ _ => rfl
    | boolean | null => exact parts.word.weaken fun e other => by simp [runsOn, isWordPart, other]
    | _ => cases value
  obtain ⟨b, next, rest⟩ := nextWhole token stop front
  refine opensToken next ?_ rest (Node.alikeForms.mpr rfl) (.literal next value)
  rintro o rfl
  cases value

theorem signApart (known : o ∈ prefixOperators) (argument : Formed .expression a)
    (separable : (⟨.unary o true a, span⟩ : Node).separable = true) (apart : a.Everywhere (Node.separable · = true)) :
    Avoids (runsOn .script (.punctuator o)) (a.chars ++ tail) := by
  obtain ⟨e, es, text, -, other, -⟩ := argument.starts (by simp)
  rw [text]
  refine avoidsCons (Bool.eq_false_iff.mpr fun runs => ?_)
  obtain rfl | ⟨doubles, same⟩ := prefixRuns known runs
  · exact other (by decide)
  · have sign : e = '+' ∨ e = '-' := by
      simp only [Node.doubles, Bool.or_eq_true, beq_iff_eq] at doubles
      obtain rfl | rfl := doubles
      · exact .inl (by cases same; rfl)
      · exact .inr (by cases same; rfl)
    obtain ⟨o', a', form, same'⟩ := argument.signed rfl sign (by rw [text]; rfl) apart
    have twice : o = o' := String.toList_inj.mp (same.trans same'.symm)
    simp [Node.separable, form, twice, twice ▸ doubles] at separable

theorem operandUnary (known : o ∈ prefixOperators) (formed : Formed .expression a) (argument : Operand x a) :
    Operand x ⟨.unary o true a, span⟩ := by
  intro d c tail fits front parts stop
  obtain ⟨separable, room, below⟩ := Node.fitsUnary.mp fits
  rw [Node.charsUnary, List.append_assoc] at front
  have listed : ∀ o ∈ prefixOperators, o ∈ punctuators .script := by decide
  obtain ⟨b, takes, rest⟩ := takesAt (listed o known) (signApart known formed separable below.1) front
  have front' : b.skip.rest = a.chars ++ tail := by rw [formedSolid formed (by simp) rest, rest]
  obtain ⟨z, b', rest', alike, reads⟩ := argument below front' ⟨parts.word, parts.point⟩ stop
  refine ⟨_, b', rest', Node.alikeForms.mpr ?_, .unary takes known room reads⟩
  simp only [Form.map, show z.withoutSpans = a.withoutSpans from alike]

theorem operatorAt (known? : level ∈ levels) (known : o ∈ level.operators)
    (behind : b.rest = ' ' :: (o.toList ++ ' ' :: more)) : ∃ b', b.Takes .script o b' ∧ b'.rest = ' ' :: more := by
  have listed : ∀ level ∈ levels, ∀ o ∈ level.operators, o ∈ punctuators .script ∧
      runsOn .script (.punctuator o) ' ' = false := by decide
  obtain ⟨punctuator, blank⟩ := listed level known? o known
  have stop : Avoids (runsOn .script (.punctuator o)) (' ' :: more) := avoidsCons blank
  exact takesAt punctuator stop (skipBlank behind (nextPunctuator punctuator stop).1)

theorem openerJoin (known? : level ∈ levels) (known : o ∈ level.operators) (left : Operand x l) (right : Operand x r)
    (formedLeft : Formed .expression l) (formedRight : Formed .expression r) :
    Opener x ⟨level.join.form o l r, span⟩ := by
  intro d c tail fits front parts
  obtain ⟨room, fitsLeft, fitsRight⟩ := (Node.fitsJoin level.join).mp fits
  rw [Node.charsJoin] at front
  simp only [List.cons_append, List.append_assoc, List.nil_append] at front
  obtain ⟨c₁, opens, rest₁⟩ := markAt (freeScript "(" (by decide)) rfl front
  have blank : isIdentifierPart ' ' = false ∧ ' ' ≠ '.' := ⟨partOther _ (by decide), by decide⟩
  have apart : ∀ {p : String}, p ∈ suffixMarks → ∀ level ∈ levels, p ∉ level.operators := by decide
  obtain ⟨y, c₂, rest₂, alikeLeft, readsLeft⟩ := left fitsLeft
    (by rw [formedSolid formedLeft (by simp) rest₁, rest₁]) (Node.partsFirst _ blank) fun b behind => by
      obtain ⟨b', operator, -⟩ := operatorAt known? known behind
      refine stopsOf operator fun p inside same => ?_
      cases same
      exact apart inside level known? known
  obtain ⟨c₃, operator, rest₃⟩ := operatorAt known? known rest₂
  have closing : Closing (')' :: tail) := closingFirst (by decide) tail
  have solid := (formedRight.starts (by simp)).append (')' :: tail)
  obtain ⟨z, c₄, rest₄, alikeRight, readsRight⟩ := right fitsRight
    (skipBlank rest₃ (solid.solid (by decide))) closing.parts fun b behind => closing.stops behind (Text.every (by decide))
  obtain ⟨c₅, closes, rest₅⟩ := markHere (freeScript ")" (by decide)) rfl rest₄
  have inside := readsOperation known? known readsLeft operator readsRight (closing.levels rest₄)
  refine ⟨stopsOf opens ?_, _, c₅, rest₅, Node.alikeForms.mpr ?_,
    fun _ _ more => .chain (.parenthesized opens room inside closes) more⟩
  · intro p inside same
    cases same
    exact absurd inside (by decide)
  · have both : y.withoutSpans = l.withoutSpans ∧ z.withoutSpans = r.withoutSpans := ⟨alikeLeft, alikeRight⟩
    cases level.join <;> simp only [Join.form, Form.map, both]

end Primary

section Suffixes

theorem openerMember (before : object.kind ≠ .unary → Opener x object) (token : Whole .script (.identifier s)) :
    Opener x ⟨.member object ⟨.identifier s, span'⟩ false, span⟩ := by
  intro d c tail fits front parts
  obtain ⟨plain, point, below⟩ := Node.fitsMember.mp fits
  rw [Node.charsMember, List.append_assoc, List.cons_append] at front
  have dotted : object.Parts ('.' :: (s.toList ++ tail)) :=
    ⟨avoidsCons (partOther _ (by decide)), fun decimal => by rw [point] at decimal; cases decimal⟩
  obtain ⟨signless, first, b, rest, alike, reads⟩ := before plain below front dotted
  obtain ⟨e, es, text, start, -⟩ := wordOf token.1 rfl
  have starts : s.toList = e :: es := text
  have stop : Avoids (runsOn .script (.punctuator ".")) (s.toList ++ tail) := by
    have known : followers .script "." = ['.'] := by decide
    have digit : e.isDigit = false := Bool.eq_false_iff.mpr fun digit => by
      rw [digitStart digit] at start
      cases start
    rw [starts]
    exact avoidsCons (by simp [runsOn, known, digit, startOther start '.' (by decide)])
  obtain ⟨b₁, dot, rest₁⟩ := takesHere (o := ".") (by decide) stop rest
  have word : Avoids (runsOn .script (.identifier s)) tail :=
    parts.word.weaken fun e other => by simp [runsOn, isWordPart, other]
  have solid : b₁.skip = b₁ :=
    skipFirst (startUnblank start) (startOther start '/' (by decide)) (by rw [rest₁, starts, List.cons_append])
  obtain ⟨b₂, own, rest₂⟩ := nextWhole token word (by rw [solid, rest₁]; rfl)
  refine ⟨signless, _, b₂, rest₂, Node.alikeForms.mpr ?_, fun z c' more => reads z c' (.memberSuffix dot own more)⟩
  simp only [Form.map, Node.withoutSpansEq, show first.withoutSpans = object.withoutSpans from alike]

theorem openerComputed (before : object.kind ≠ .unary → Opener x object) (inside : Operand x property)
    (formed : Formed .expression property) : Opener x ⟨.member object property true, span⟩ := by
  intro d c tail fits front parts
  obtain ⟨plain, below, room, fitsInside⟩ := Node.fitsComputed.mp fits
  rw [Node.charsComputed] at front
  simp only [List.cons_append, List.append_assoc, List.nil_append] at front
  obtain ⟨signless, first, b, rest, alike, reads⟩ := before plain below front
    (Node.partsFirst _ ⟨partOther _ (by decide), by decide⟩)
  obtain ⟨b₁, opens, rest₁⟩ := markHere (freeScript "[" (by decide)) rfl rest
  obtain ⟨y, b₂, rest₂, alikeInside, readsInside⟩ := inside.expression fitsInside
    (by rw [formedSolid formed (by simp) rest₁, rest₁]) (closingFirst (by decide) tail)
  obtain ⟨b₃, closes, rest₃⟩ := markHere (freeScript "]" (by decide)) rfl rest₂
  refine ⟨signless, _, b₃, rest₃, Node.alikeForms.mpr ?_, fun z c' more =>
    reads z c' (.computedSuffix opens room readsInside closes more)⟩
  simp only [Form.map, show first.withoutSpans = object.withoutSpans from alike,
    show y.withoutSpans = property.withoutSpans from alikeInside]

def RestoredAll (x : Setting) (phrase : List Node → Phrase) (m : Mode) (d : Nat) (ns : List Node) (c : Cursor)
    (tail : List Char) : Prop := ∃ zs b, b.rest = tail ∧ Node.AllAlike zs ns ∧ Reads x (phrase zs) m d c b

theorem closingMore (ns : List Node) (tail : List Char) : Closing (Node.moreChars ns ++ ')' :: tail) := by
  cases ns with
  | nil => exact closingFirst (by decide) tail
  | cons n ns => exact closingFirst (e := ',') (by decide) _

theorem restoredMore (formed : ∀ n ∈ ns, Formed .expression n) (each : ∀ n ∈ ns, Operand x n)
    (fits : ∀ n ∈ ns, n.Fits x.config.maxDepth d) (behind : c.rest = Node.moreChars ns ++ ')' :: tail) :
    RestoredAll x .moreArguments .script d ns c (')' :: tail) := by
  induction ns generalizing c with
  | nil => exact ⟨[], c, behind, rfl, .noMoreArguments (stopsHere (by decide) behind (by decide))⟩
  | cons n ns ih =>
      obtain ⟨formedFirst, formedMore⟩ := List.forall_mem_cons.mp formed
      obtain ⟨first, others⟩ := List.forall_mem_cons.mp each
      obtain ⟨fitsFirst, fitsMore⟩ := List.forall_mem_cons.mp fits
      simp only [Node.moreChars, List.flatMap_cons, List.cons_append, List.append_assoc] at behind
      obtain ⟨c₁, takes, rest₁⟩ := markHere (freeScript "," (by decide)) rfl behind
      have solid := (formedFirst.starts (by simp)).append (Node.moreChars ns ++ ')' :: tail)
      obtain ⟨z, c₂, rest₂, alike, reads⟩ := first.expression fitsFirst (skipBlank rest₁ (solid.solid (by decide)))
        (closingMore ns tail)
      obtain ⟨zs, c₃, rest₃, alikeMore, readsMore⟩ := ih formedMore others fitsMore rest₂
      exact ⟨z :: zs, c₃, rest₃, Node.allAlikeCons alike alikeMore, .moreArguments takes reads readsMore⟩

theorem restoredArguments (formed : ∀ n ∈ ns, Formed .expression n) (each : ∀ n ∈ ns, Operand x n)
    (fits : ∀ n ∈ ns, n.Fits x.config.maxDepth d) (behind : c.rest = Node.argumentChars ns ++ ')' :: tail) :
    RestoredAll x .arguments .script d ns c (')' :: tail) := by
  cases ns with
  | nil =>
      obtain ⟨b, closes, -⟩ := markHere (freeScript ")" (by decide)) rfl behind
      exact ⟨[], c, behind, rfl, .noArguments closes⟩
  | cons n ns =>
      obtain ⟨formedFirst, formedMore⟩ := List.forall_mem_cons.mp formed
      obtain ⟨first, others⟩ := List.forall_mem_cons.mp each
      obtain ⟨fitsFirst, fitsMore⟩ := List.forall_mem_cons.mp fits
      rw [Node.argumentChars, List.append_assoc] at behind
      obtain ⟨z, c₁, rest₁, alike, reads⟩ := first.expression fitsFirst
        (by rw [formedSolid formedFirst (by simp) behind, behind]) (closingMore ns tail)
      obtain ⟨zs, c₂, rest₂, alikeMore, readsMore⟩ := restoredMore formedMore others fitsMore rest₁
      exact ⟨z :: zs, c₂, rest₂, Node.allAlikeCons alike alikeMore, .arguments reads readsMore⟩

theorem openerCall (before : object.kind ≠ .unary → Opener x object) (formed : ∀ n ∈ ns, Formed .expression n)
    (each : ∀ n ∈ ns, Operand x n) : Opener x ⟨.call object ns, span⟩ := by
  intro d c tail fits front parts
  obtain ⟨plain, below, room, fitsInside⟩ := Node.fitsCall.mp fits
  rw [Node.charsCall] at front
  simp only [List.cons_append, List.append_assoc, List.nil_append] at front
  obtain ⟨signless, first, b, rest, alike, reads⟩ := before plain below front
    (Node.partsFirst _ ⟨partOther _ (by decide), by decide⟩)
  obtain ⟨b₁, opens, rest₁⟩ := markHere (freeScript "(" (by decide)) rfl rest
  obtain ⟨zs, b₂, rest₂, alikeInside, readsInside⟩ := restoredArguments formed each fitsInside rest₁
  obtain ⟨b₃, closes, rest₃⟩ := markHere (freeScript ")" (by decide)) rfl rest₂
  refine ⟨signless, _, b₃, rest₃, Node.alikeForms.mpr ?_, fun z c' more =>
    reads z c' (.callSuffix opens room readsInside closes more)⟩
  simp only [Form.map, show first.withoutSpans = object.withoutSpans from alike,
    show zs.map Node.withoutSpans = ns.map Node.withoutSpans from alikeInside]

end Suffixes

end Grammar

end JsxTree
