import JsxTree.Proofs.Operands

/-! Attributes, children and tags in normal form, read back. Text runs up to what ends it, names up to
what they do not go on with, and what stands between braces is an expression again. -/
namespace JsxTree.Grammar

open Cursor Lexeme JsxTree.Parser

variable {x : Setting} {m : Mode} {d : Nat} {b c : Cursor} {n a : Node} {ns as : List Node} {s : String}
  {tail more : List Char} {span span' : Span}

section Attributes

def Tagged (x : Setting) (m : Mode) (n : Node) : Prop := ∀ ⦃d c tail⦄, n.Fits x.config.maxDepth d →
  c.skip.rest = n.chars ++ tail → Restored x .fragment m d n c tail ∨ Restored x .element m d n c tail

def Assigned (x : Setting) (n : Node) : Prop := ∀ ⦃d c tail⦄, n.Fits x.config.maxDepth d →
  c.skip.rest = n.chars ++ tail → Restored x .attributeValue .jsx d n c tail

def Attributed (x : Setting) (n : Node) : Prop := ∀ ⦃d c tail⦄, n.Fits x.config.maxDepth d →
  c.skip.rest = n.chars ++ tail → EndsName tail → (∀ b : Cursor, b.rest = tail → b.Stops ["="] .jsx) →
  Restored x .attribute .jsx d n c tail

theorem restoredClosed (inside : Operand x a) (formed : Formed .expression a) (fits : a.Fits x.config.maxDepth d)
    (behind : c.rest = a.chars ++ '}' :: tail) : ∃ z b b', b'.rest = tail ∧ z.Alike a ∧
      Reads x (.expression z) .script d c b ∧ b.Takes .script "\x7d" b' := by
  obtain ⟨z, b, rest, alike, reads⟩ := inside.expression fits (by rw [formedSolid formed (by simp) behind, behind])
    (closingFirst (by decide) tail)
  obtain ⟨b', closes, rest'⟩ := markHere (freeScript "\x7d" (by decide)) rfl rest
  exact ⟨z, b, b', rest', alike, reads, closes⟩

theorem restoredSpread (inside : Operand x a) (formed : Formed .expression a) (fits : a.Fits x.config.maxDepth d)
    (behind : c.rest = "...".toList ++ (a.chars ++ '}' :: tail)) : ∃ c₁ z b b', b'.rest = tail ∧ z.Alike a ∧
      c.Takes .script "..." c₁ ∧ Reads x (.expression z) .script d c₁ b ∧ b.Takes .script "\x7d" b' := by
  obtain ⟨c₁, dots, rest⟩ := takesFree (freeScript "..." (by decide)) behind
  obtain ⟨z, b, b', rest', alike, reads, closes⟩ := restoredClosed inside formed fits rest
  exact ⟨c₁, z, b, b', rest', alike, dots, reads, closes⟩

theorem assignedString (token : Whole .jsx (.stringLiteral s)) :
    Assigned x ⟨.literal (.string (Literal.unquote s)) s, span⟩ := by
  intro d c tail _ front
  rw [Node.charsLiteral] at front
  obtain ⟨b, next, rest⟩ := nextWhole token (fun _ _ => rfl) front
  exact ⟨_, b, rest, Node.alikeForms.mpr rfl, .stringValue next⟩

theorem assignedContainer (inside : Operand x a) (formed : Formed .expression a) : Assigned x ⟨.container a, span⟩ := by
  intro d c tail fits front
  rw [Node.charsContainer] at front
  simp only [List.cons_append, List.append_assoc, List.nil_append] at front
  obtain ⟨c₁, opens, rest₁⟩ := markAt (freeJsx "\x7b" (by decide)) rfl front
  obtain ⟨z, c₂, b, rest, alike, reads, closes⟩ := restoredClosed inside formed (Node.fitsContainer.mp fits) rest₁
  refine ⟨_, b, rest, Node.alikeForms.mpr ?_, .containerValue opens reads closes⟩
  simp only [Form.map, show z.withoutSpans = a.withoutSpans from alike]

theorem assignedMarkup (tagged : Tagged x .jsx n) : Assigned x n := by
  intro d c tail fits front
  obtain ⟨z, b, rest, alike, reads⟩ | ⟨z, b, rest, alike, reads⟩ := tagged fits front
  · exact ⟨z, b, rest, alike, .fragmentValue reads⟩
  · exact ⟨z, b, rest, alike, .elementValue reads⟩

theorem attributedSpread (inside : Operand x a) (formed : Formed .expression a) :
    Attributed x ⟨.spreadAttribute a, span⟩ := by
  intro d c tail fits front _ _
  rw [Node.charsSpreadAttribute] at front
  simp only [List.cons_append, List.append_assoc, List.nil_append] at front
  obtain ⟨c₁, opens, rest₁⟩ := markAt (freeJsx "\x7b" (by decide)) rfl front
  obtain ⟨c₂, z, c₃, b, rest, alike, dots, reads, closes⟩ :=
    restoredSpread inside formed (Node.fitsSpreadAttribute.mp fits) rest₁
  refine ⟨_, b, rest, Node.alikeForms.mpr ?_, .spreadAttribute opens dots reads closes⟩
  simp only [Form.map, show z.withoutSpans = a.withoutSpans from alike]

theorem attributedPlain (name : NameFormed false n) : Attributed x ⟨.jsxAttribute n none, span⟩ := by
  intro d c tail _ front ends unassigned
  rw [Node.charsPlainAttribute] at front
  obtain ⟨own, b, rest, alike, reads⟩ := name.reads x.file front ends
  refine ⟨_, b, rest, Node.alikeForms.mpr ?_, .plainAttribute reads (unassigned b rest)⟩
  simp only [Form.map, Option.map_none, show own.withoutSpans = n.withoutSpans from alike]

theorem attributedValue (name : NameFormed false n) (formed : Formed .value a) (assigned : Assigned x a) :
    Attributed x ⟨.jsxAttribute n (some a), span⟩ := by
  intro d c tail fits front _ _
  rw [Node.charsValuedAttribute, List.append_assoc, List.cons_append] at front
  obtain ⟨own, b, rest, alike, reads⟩ := name.reads x.file front
    (endsNameFirst _ ⟨wordPartOther _ _ (by decide), by decide⟩ (by decide))
  obtain ⟨b₁, takes, rest₁⟩ := markHere (freeJsx "=" (by decide)) rfl rest
  obtain ⟨z, b₂, rest₂, alike', reads'⟩ := assigned ((Node.fitsValuedAttribute name).mp fits)
    (by rw [formedSolid formed (by simp) rest₁, rest₁])
  refine ⟨_, b₂, rest₂, Node.alikeForms.mpr ?_, .valuedAttribute reads takes reads'⟩
  simp only [Form.map, Option.map_some, show own.withoutSpans = n.withoutSpans from alike,
    show z.withoutSpans = a.withoutSpans from alike']

def TagCloses (tail : List Char) : Prop := (∃ more, tail = ' ' :: '/' :: '>' :: more) ∨ ∃ more, tail = '>' :: more

theorem TagCloses.first (close : TagCloses tail) (behind : b.rest = tail) :
    ∃ e es, b.skip.rest = e :: es ∧ e ∈ ['/', '>'] := by
  obtain ⟨more, rfl⟩ | ⟨more, rfl⟩ := close
  · have solid : Trivia.splitPiece ('/' :: '>' :: more) = none := splitPieceSlash (avoidsCons (by decide))
    exact ⟨'/', _, skipBlank behind solid, by decide⟩
  · exact ⟨'>', more, by rw [skipFirst (by decide) (by decide) behind, behind], by decide⟩

theorem attributeFirst (h : Formed .attribute a) :
    ∃ e es, a.chars = e :: es ∧ (isIdentifierStart e = true ∨ e = '{') := by
  cases h with
  | spreadAttribute => exact ⟨'{', _, Node.charsSpreadAttribute, .inr rfl⟩
  | plainAttribute name =>
      obtain ⟨e, es, text, start⟩ := name.first
      exact ⟨e, es, by rw [Node.charsPlainAttribute, text], .inl start⟩
  | valuedAttribute name =>
      obtain ⟨e, es, text, start⟩ := name.first
      exact ⟨e, _, by rw [Node.charsValuedAttribute, text, List.cons_append], .inl start⟩

theorem tagFirst (formed : ∀ a ∈ as, Formed .attribute a) (close : TagCloses tail)
    (behind : b.rest = Node.attributeChars as ++ tail) : ∃ e es, b.skip.rest = e :: es ∧ e ∉ [':', '.', '='] := by
  cases as with
  | nil =>
      obtain ⟨e, es, front, mark⟩ := close.first behind
      exact ⟨e, es, front, Text.every (P := (· ∉ [':', '.', '='])) (by decide) e mark⟩
  | cons a as =>
      obtain ⟨e, es, text, start⟩ := attributeFirst (formed a List.mem_cons_self)
      have plain : Trivia.isBlank e = false ∧ e ≠ '/' ∧ e ∉ [':', '.', '='] := by
        obtain start | rfl := start
        · exact ⟨startUnblank start, startOther start '/' (by decide), by
            simp [startOther start ':' (by decide), startOther start '.' (by decide), startOther start '=' (by decide)]⟩
        · decide
      simp only [Node.attributeChars, List.flatMap_cons, text, List.cons_append, List.append_assoc] at behind
      exact ⟨e, _, skipBlank behind (splitPieceNone plain.1 plain.2.1), plain.2.2⟩

theorem tagStops {ps : List String} (formed : ∀ a ∈ as, Formed .attribute a) (close : TagCloses tail)
    (behind : b.rest = Node.attributeChars as ++ tail) (marks : ∀ p ∈ ps, p ∈ [":", ".", "="]) : b.Stops ps m := by
  obtain ⟨e, es, front, other⟩ := tagFirst formed close behind
  refine stopsFirst front fun p inside same => ?_
  have single : ∀ p ∈ [":", ".", "="], p.toList.head?.all ([':', '.', '='].contains ·) = true := by decide
  have known := single p (marks p inside)
  rw [same] at known
  exact other (List.contains_iff_mem.mp known)

theorem tagEndsName (formed : ∀ a ∈ as, Formed .attribute a) (close : TagCloses tail) :
    EndsName (Node.attributeChars as ++ tail) where
  apart := by
    cases as with
    | nil => obtain ⟨more, rfl⟩ | ⟨more, rfl⟩ := close <;> exact avoidsCons (wordPartOther _ _ (by decide))
    | cons a as => exact avoidsCons (wordPartOther _ _ (by decide))
  stops b behind := tagStops formed close behind (by decide)

theorem namelessFirst {e : Char} {es : List Char} (front : c.skip.rest = e :: es) (plain : isIdentifierStart e = false)
    (s : String) (c' : Cursor) : c.next? .jsx ≠ some (.jsxIdentifier s, c') := by
  intro next
  obtain ⟨f, fs, text, start⟩ := nameStarts (wholeNext next rfl)
  have rest := (nextTraces next).1.1
  rw [front, show (Token.Kind.jsxIdentifier s).text.toList = f :: fs from text] at rest
  obtain ⟨rfl, -⟩ := List.cons.inj rest
  rw [plain] at start
  cases start

theorem restoredAttributes (formed : ∀ a ∈ as, Formed .attribute a) (each : ∀ a ∈ as, Attributed x a)
    (fits : ∀ a ∈ as, a.Fits x.config.maxDepth d) (close : TagCloses tail)
    (behind : c.rest = Node.attributeChars as ++ tail) : RestoredAll x .attributes .jsx d as c tail := by
  induction as generalizing c with
  | nil =>
      obtain ⟨e, es, front, mark⟩ := close.first behind
      obtain ⟨plain, other⟩ : isIdentifierStart e = false ∧ e ≠ '{' := by
        obtain rfl | rfl : e = '/' ∨ e = '>' := by simpa using mark
        · exact ⟨unstarted _ (by decide), by decide⟩
        · exact ⟨unstarted _ (by decide), by decide⟩
      have braceless : c.Stops ["\x7b"] .jsx := stopsFirst front fun p inside same => by
        cases List.mem_singleton.mp inside
        exact other (Option.some.inj same).symm
      exact ⟨[], c, behind, rfl, .noAttribute braceless (namelessFirst front plain)⟩
  | cons a as ih =>
      obtain ⟨formedFirst, formedMore⟩ := List.forall_mem_cons.mp formed
      obtain ⟨first, others⟩ := List.forall_mem_cons.mp each
      obtain ⟨fitsFirst, fitsMore⟩ := List.forall_mem_cons.mp fits
      simp only [Node.attributeChars, List.flatMap_cons, List.cons_append, List.append_assoc] at behind
      have solid := (formedFirst.starts (by simp)).append (Node.attributeChars as ++ tail)
      obtain ⟨z, c₁, rest₁, alike, reads⟩ := first fitsFirst (skipBlank behind (solid.solid (by decide)))
        (tagEndsName formedMore close) fun b behind => tagStops formedMore close behind (by decide)
      obtain ⟨zs, c₂, rest₂, alikeMore, readsMore⟩ := ih formedMore others fitsMore rest₁
      exact ⟨z :: zs, c₂, rest₂, Node.allAlikeCons alike alikeMore, .attributes reads readsMore⟩

end Attributes

section Children

def Held (x : Setting) (n : Node) : Prop := ∀ ⦃d c tail⦄, n.Fits x.config.maxDepth d → c.rest = n.chars ++ tail →
  (n.kind = .jsxText → Avoids (fun e => !endsText e) tail) → Restored x .child .jsx d n c tail

theorem taggedKind (h : Formed (.markup m) n) : n.kind = .fragment ∨ n.kind = .element := by
  cases h with
  | fragment => exact .inl rfl
  | selfClosing | element => exact .inr rfl

theorem childFirst (h : Formed .child n) : (∃ raw, n.form = .jsxText raw raw ∧ n.chars = raw.toList ∧ raw.toList ≠ []) ∨
    n.kind ≠ .jsxText ∧ ∃ e es, n.chars = e :: es ∧ endsText e = true := by
  cases h with
  | text nonempty _ => exact .inl ⟨_, rfl, Node.charsText, nonempty⟩
  | markupChild tagged =>
      obtain ⟨es, text⟩ := taggedFirst tagged
      obtain kind | kind := taggedKind tagged <;> exact .inr ⟨by simp [kind], '<', es, text, rfl⟩
  | emptyChild | containerChild => exact .inr ⟨by simp [Node.kind, Form.kind], '{', _, Node.charsContainer, rfl⟩
  | spreadChild => exact .inr ⟨by simp [Node.kind, Form.kind], '{', _, Node.charsSpreadChild, rfl⟩

theorem heldText (nonempty : s.toList ≠ []) (plain : ∀ e ∈ s.toList, endsText e = false) : Held x ⟨.jsxText s s, span⟩ := by
  intro d c tail _ behind stop
  rw [Node.charsText] at behind
  obtain ⟨b, run, rest⟩ := textAt nonempty plain (stop rfl) behind
  exact ⟨_, b, rest, Node.alikeForms.mpr rfl, .text run⟩

theorem heldMarkup (formed : Formed (.markup .jsx) n) (tagged : Tagged x .jsx n) : Held x n := by
  intro d c tail fits behind _
  obtain ⟨es, text⟩ := taggedFirst formed
  have less : c.rest = '<' :: (es ++ tail) := by rw [behind, text, List.cons_append]
  have textless : c.text? = none := textlessAt rfl less
  have front : c.skip.rest = n.chars ++ tail := by rw [skipFirst (by decide) (by decide) less, behind]
  obtain ⟨z, b, rest, alike, reads⟩ | ⟨z, b, rest, alike, reads⟩ := tagged fits front
  · exact ⟨z, b, rest, alike, .fragmentChild textless reads⟩
  · exact ⟨z, b, rest, alike, .elementChild textless reads⟩

theorem heldEmpty : Held x ⟨.container ⟨.emptyExpression, span⟩, span'⟩ := by
  intro d c tail _ behind _
  rw [Node.charsContainer, Node.charsEmpty] at behind
  simp only [List.cons_append, List.nil_append] at behind
  obtain ⟨c₁, opens, rest₁⟩ := markHere (freeJsx "\x7b" (by decide)) rfl behind
  obtain ⟨b, closes, rest⟩ := markHere (freeScript "\x7d" (by decide)) rfl rest₁
  exact ⟨_, b, rest, Node.alikeForms.mpr (by simp only [Form.map, Node.withoutSpansEq]), .emptyChild (textlessAt rfl behind) opens closes⟩

theorem heldContainer (inside : Operand x a) (formed : Formed .expression a) : Held x ⟨.container a, span⟩ := by
  intro d c tail fits behind _
  rw [Node.charsContainer] at behind
  simp only [List.cons_append, List.append_assoc, List.nil_append] at behind
  obtain ⟨c₁, opens, rest₁⟩ := markHere (freeJsx "\x7b" (by decide)) rfl behind
  obtain ⟨z, c₂, b, rest, alike, reads, closes⟩ := restoredClosed inside formed (Node.fitsContainer.mp fits) rest₁
  refine ⟨_, b, rest, Node.alikeForms.mpr ?_, .containerChild (textlessAt rfl behind) opens reads closes⟩
  simp only [Form.map, show z.withoutSpans = a.withoutSpans from alike]

theorem heldSpread (inside : Operand x a) (formed : Formed .expression a) : Held x ⟨.spreadChild a, span⟩ := by
  intro d c tail fits behind _
  rw [Node.charsSpreadChild] at behind
  simp only [List.cons_append, List.append_assoc, List.nil_append] at behind
  obtain ⟨c₁, opens, rest₁⟩ := markHere (freeJsx "\x7b" (by decide)) rfl behind
  obtain ⟨c₂, z, c₃, b, rest, alike, dots, reads, closes⟩ := restoredSpread inside formed (Node.fitsSpreadChild.mp fits) rest₁
  refine ⟨_, b, rest, Node.alikeForms.mpr ?_, .spreadChild (textlessAt rfl behind) opens dots reads closes⟩
  simp only [Form.map, show z.withoutSpans = a.withoutSpans from alike]

theorem childrenAvoid (formed : ∀ n ∈ ns, Formed .child n) (apart : TextsApart (n :: ns)) (text : n.kind = .jsxText) :
    Avoids (fun e => !endsText e) (Node.childChars ns ++ '<' :: more) := by
  cases ns with
  | nil => exact avoidsCons (by decide)
  | cons n' ns =>
      obtain ⟨raw, form, -⟩ | ⟨-, e, es, chars, mark⟩ := childFirst (formed n' List.mem_cons_self)
      · exact absurd ⟨text, by rw [Node.kind, form]; rfl⟩ apart.1
      · simp only [Node.childChars, List.flatMap_cons, chars, List.cons_append]
        exact avoidsCons (by simp [mark])

theorem textsApartTail (h : TextsApart (n :: ns)) : TextsApart ns := by
  cases ns with
  | nil => trivial
  | cons => exact h.2

theorem slashAt (apart : Avoids (fun e => e == '/' || e == '*') more) (front : c.skip.rest = '/' :: more) :
    ∃ c', c.Takes .jsx "/" c' ∧ c'.rest = more := by
  have none := followersJsx "/" (by decide)
  exact takesAt (by decide) (apart.weaken fun e other => by simpa [runsOn, none] using other) front

theorem restoredChildren (formed : ∀ n ∈ ns, Formed .child n) (apart : TextsApart ns) (each : ∀ n ∈ ns, Held x n)
    (fits : ∀ n ∈ ns, n.Fits x.config.maxDepth d) (ends : Avoids (fun e => e == '/' || e == '*') more)
    (behind : c.rest = Node.childChars ns ++ '<' :: '/' :: more) :
    RestoredAll x .children .jsx d ns c ('<' :: '/' :: more) := by
  induction ns generalizing c with
  | nil =>
      obtain ⟨c₁, takes, rest₁⟩ := markHere (freeJsx "<" (by decide)) rfl behind
      have solid : Trivia.splitPiece ('/' :: more) = none := splitPieceSlash ends
      obtain ⟨c₂, slash, -⟩ := slashAt ends (by rw [skipSolid (by rw [rest₁]; exact solid)]; exact rest₁)
      exact ⟨[], c, behind, rfl, .noChild (textlessAt rfl behind) takes slash⟩
  | cons n ns ih =>
      obtain ⟨-, formedMore⟩ := List.forall_mem_cons.mp formed
      obtain ⟨first, others⟩ := List.forall_mem_cons.mp each
      obtain ⟨fitsFirst, fitsMore⟩ := List.forall_mem_cons.mp fits
      simp only [Node.childChars, List.flatMap_cons, List.append_assoc] at behind
      obtain ⟨z, c₁, rest₁, alike, reads⟩ := first fitsFirst behind fun text => childrenAvoid formedMore apart text
      obtain ⟨zs, c₂, rest₂, alikeMore, readsMore⟩ := ih formedMore (textsApartTail apart) others fitsMore rest₁
      exact ⟨z :: zs, c₂, rest₂, Node.allAlikeCons alike alikeMore, .children reads readsMore⟩

end Children

section Tags

variable {own closing : Node} {span'' : Span} {e : Char} {es : List Char}

theorem lessAt (m : Mode) (plain : e ≠ '<' ∧ e ≠ '=') (front : c.skip.rest = '<' :: e :: es) :
    ∃ b, c.Takes m "<" b ∧ b.rest = e :: es := by
  have known : ∀ m, "<" ∈ punctuators m ∧ (followers m "<").all (fun f => f = '<' ∨ f = '=') = true := by
    intro m
    cases m <;> decide
  refine takesAt (known m).1 (avoidsCons ?_) front
  have other : (followers m "<").contains e = false := by
    refine Bool.eq_false_iff.mpr fun inside => ?_
    obtain same | same := Text.every (known m).2 e (List.contains_iff_mem.mp inside)
    · exact plain.1 same
    · exact plain.2 same
  simp only [runsOn, other]
  rfl

theorem greaterAt (m : Mode) (stands : m = .script → Avoids runsOnTag tail) (behind : b.rest = '>' :: tail) :
    ∃ b', b.Takes m ">" b' ∧ b'.rest = tail := by
  cases m with
  | jsx => exact markHere (freeJsx ">" (by decide)) rfl behind
  | script =>
      have known : ">" ∈ punctuators .script ∧ (followers .script ">").all runsOnTag = true := by decide
      refine takesHere known.1 ((stands rfl).weaken fun e other => ?_) behind
      have apart : (followers .script ">").contains e = false := by
        refine Bool.eq_false_iff.mpr fun inside => ?_
        rw [List.all_eq_true.mp known.2 e (List.contains_iff_mem.mp inside)] at other
        cases other
      simp only [runsOn, apart]
      rfl

theorem slashGreater (front : c.skip.rest = '/' :: '>' :: tail) :
    ∃ b b', c.Takes .jsx "/" b ∧ b.Takes .jsx ">" b' ∧ b'.rest = tail := by
  obtain ⟨b, slash, rest⟩ := slashAt (avoidsCons (by decide)) front
  obtain ⟨b', closed, rest'⟩ := markHere (freeJsx ">" (by decide)) rfl rest
  exact ⟨b, b', slash, closed, rest'⟩

theorem fragmentCloses (behind : c.rest = '<' :: '/' :: '>' :: tail) : ∃ c₁ c₂ c₃, c.Takes .jsx "<" c₁ ∧
    c₁.Takes .jsx "/" c₂ ∧ c₂.Takes .jsx ">" c₃ ∧ c₃.rest = tail := by
  obtain ⟨c₁, closes, rest₁⟩ := markHere (freeJsx "<" (by decide)) rfl behind
  have solid : Trivia.splitPiece ('/' :: '>' :: tail) = none := splitPieceSlash (avoidsCons (by decide))
  obtain ⟨c₂, c₃, slash, closed, rest₃⟩ := slashGreater (by rw [skipSolid (by rw [rest₁]; exact solid), rest₁])
  exact ⟨c₁, c₂, c₃, closes, slash, closed, rest₃⟩

theorem bracketsAt (m : Mode) (stands : m = .script → Avoids runsOnTag tail) (front : c.skip.rest = '<' :: '>' :: tail) :
    ∃ b b' c₁ c₂, c.Takes m "<" b ∧ b.Takes m ">" b' ∧ c.Takes .jsx "<" c₁ ∧ c₁.Takes .jsx ">" c₂ ∧ c₂.rest = tail := by
  obtain ⟨b, less, rest⟩ := lessAt m (by decide) front
  obtain ⟨b', greater, -⟩ := greaterAt m stands rest
  obtain ⟨c₁, opens, rest₁⟩ := lessAt .jsx (by decide) front
  obtain ⟨c₂, opened, rest₂⟩ := markHere (freeJsx ">" (by decide)) rfl rest₁
  exact ⟨b, b', c₁, c₂, less, greater, opens, opened, rest₂⟩

theorem tagStandsAvoids (h : TagStands m ns) (formed : ∀ n ∈ ns, Formed .child n) (script : m = .script) :
    Avoids runsOnTag (Node.childChars ns ++ '<' :: more) := by
  cases ns with
  | nil => exact avoidsCons (by decide)
  | cons n ns =>
      simp only [Node.childChars, List.flatMap_cons, List.append_assoc]
      obtain ⟨raw, form, chars, nonempty⟩ | ⟨-, e, es, chars, mark⟩ := childFirst (formed n List.mem_cons_self)
      · obtain ⟨_, span⟩ := n
        cases form
        obtain ⟨e, es, text⟩ := List.exists_cons_of_ne_nil nonempty
        rw [chars, text, List.cons_append]
        exact avoidsCons (h script e (by rw [text]; rfl))
      · rw [chars, List.cons_append]
        refine avoidsCons ?_
        simp only [endsText, Bool.or_eq_true, beq_iff_eq] at mark
        obtain rfl | rfl := mark <;> rfl

theorem taggedFragment (formed : ∀ n ∈ ns, Formed .child n) (apart : TextsApart ns) (stands : TagStands m ns)
    (each : ∀ n ∈ ns, Held x n) :
    Tagged x m ⟨.fragment ⟨.openingFragment, span⟩ ⟨.closingFragment, span'⟩ (presentList ns), span''⟩ := by
  intro d c tail fits front
  obtain ⟨room, below⟩ := Node.fitsFragment.mp fits
  rw [Node.charsFragment] at front
  simp only [List.cons_append, List.append_assoc, List.nil_append] at front
  obtain ⟨b, b', c₁, c₂, less, greater, opens, opened, rest₂⟩ := bracketsAt m (tagStandsAvoids stands formed) front
  obtain ⟨zs, c₃, rest₃, alike, reads⟩ := restoredChildren formed apart each below (avoidsCons (by decide)) rest₂
  obtain ⟨c₄, c₅, c₆, closes, slash, closed, rest₆⟩ := fragmentCloses rest₃
  refine .inl ⟨_, c₆, rest₆, Node.alikeForms.mpr ?_, .fragment less greater room opens opened reads closes slash closed⟩
  simp only [Form.map, Node.withoutSpansEq, alike.present]

theorem tagOpens (m : Mode) (name : NameFormed true own) (ends : EndsName tail)
    (front : c.skip.rest = '<' :: (own.chars ++ tail)) : ∃ b c₁ z c₂, c.Takes m "<" b ∧ b.Stops ["/"] m ∧
      c.Takes .jsx "<" c₁ ∧ c₂.rest = tail ∧ z.Alike own ∧ ReadsName x.file true z c₁ c₂ := by
  obtain ⟨e, es, text, start⟩ := name.first
  have plain : e ≠ '<' ∧ e ≠ '=' := ⟨startOther start '<' (by decide), startOther start '=' (by decide)⟩
  have solid : Trivia.isBlank e = false ∧ e ≠ '/' := ⟨startUnblank start, startOther start '/' (by decide)⟩
  rw [text, List.cons_append] at front
  obtain ⟨b, less, rest⟩ := lessAt m plain front
  obtain ⟨c₁, opens, rest₁⟩ := lessAt .jsx plain front
  have notClosing : b.Stops ["/"] m := stopsHere solid rest fun p inside same => by
    cases List.mem_singleton.mp inside
    exact solid.2 (Option.some.inj same).symm
  have named : c₁.skip.rest = own.chars ++ tail := by
    rw [skipFirst solid.1 solid.2 rest₁, rest₁, text, List.cons_append]
  obtain ⟨z, c₂, rest₂, alike, reads⟩ := name.reads x.file named ends
  exact ⟨b, c₁, z, c₂, less, notClosing, opens, rest₂, alike, reads⟩

theorem nameUncommented (name : NameFormed true closing) : Avoids (fun e => e == '/' || e == '*') (closing.chars ++ tail) := by
  obtain ⟨e, es, text, start⟩ := name.first
  have star : e ≠ '*' := by
    rintro rfl
    exact absurd start (by simp [unstarted '*' (by decide)])
  rw [text, List.cons_append]
  exact avoidsCons (by simp [startOther start '/' (by decide), star])

theorem tagCloses (x : Setting) (name : NameFormed true closing)
    (behind : c.rest = '<' :: '/' :: (closing.chars ++ '>' :: tail)) : ∃ c₁ c₂ z c₃ c₄, c.Takes .jsx "<" c₁ ∧
      c₁.Takes .jsx "/" c₂ ∧ z.Alike closing ∧ ReadsName x.file true z c₂ c₃ ∧ c₃.Takes .jsx ">" c₄ ∧ c₄.rest = tail := by
  obtain ⟨c₁, closes, rest₁⟩ := markHere (freeJsx "<" (by decide)) rfl behind
  have named : Avoids (fun e => e == '/' || e == '*') (closing.chars ++ '>' :: tail) := nameUncommented name
  obtain ⟨c₂, slash, rest₂⟩ := slashAt named (by rw [skipSolid (by rw [rest₁]; exact splitPieceSlash named), rest₁])
  obtain ⟨e, es, text, start⟩ := name.first
  have front : c₂.skip.rest = closing.chars ++ '>' :: tail := by
    rw [skipFirst (startUnblank start) (startOther start '/' (by decide)) (by rw [rest₂, text, List.cons_append]), rest₂]
  obtain ⟨z, c₃, rest₃, alike, reads⟩ := name.reads x.file front
    (endsNameFirst _ ⟨wordPartOther _ _ (by decide), by decide⟩ (by decide))
  obtain ⟨c₄, closed, rest₄⟩ := markHere (freeJsx ">" (by decide)) rfl rest₃
  exact ⟨c₁, c₂, z, c₃, c₄, closes, slash, alike, reads, closed, rest₄⟩

theorem taggedSelfClosing (name : NameFormed true own) (formed : ∀ a ∈ as, Formed .attribute a)
    (each : ∀ a ∈ as, Attributed x a) :
    Tagged x m ⟨.element ⟨.openingElement own (presentList as) true, span⟩ none none, span'⟩ := by
  intro d c tail fits front
  obtain ⟨room, below⟩ := (Node.fitsSelfClosing name).mp fits
  rw [Node.charsSelfClosing] at front
  simp only [List.cons_append, List.append_assoc, List.nil_append] at front
  have close : TagCloses (' ' :: '/' :: '>' :: tail) := .inl ⟨tail, rfl⟩
  obtain ⟨b, c₁, z, c₂, less, notClosing, opens, rest₂, alike, reads⟩ := tagOpens m name (tagEndsName formed close) front
  obtain ⟨zs, c₃, rest₃, alikeAll, readsAll⟩ := restoredAttributes formed each below close rest₂
  have solid : Trivia.splitPiece ('/' :: '>' :: tail) = none := splitPieceSlash (avoidsCons (by decide))
  obtain ⟨c₄, c₅, slash, closed, rest₅⟩ := slashGreater (skipBlank rest₃ solid)
  refine .inr ⟨_, c₅, rest₅, Node.alikeForms.mpr ?_, .selfClosing less notClosing room opens reads readsAll slash closed⟩
  simp only [Form.map, Node.withoutSpansEq, Option.map_none, alikeAll.present, show z.withoutSpans = own.withoutSpans from alike]

theorem assignmentReads (room : d < x.config.maxDepth) (front : c.skip.rest = '<' :: 'a' :: ' ' :: 'b' :: '=' :: more) :
    ∃ c₁ c₂ c₃ c₄, c.Takes .jsx "<" c₁ ∧ c₁.next? .jsx = some (.jsxIdentifier "a", c₂) ∧ c₂.rest = ' ' :: 'b' :: '=' :: more ∧
      c₂.next? .jsx = some (.jsxIdentifier "b", c₃) ∧ c₃.Takes .jsx "=" c₄ ∧ c₄.rest = more ∧
      ∀ {value c₅}, Reads x (.attributeValue value) .jsx (d + 1) c₄ c₅ → c₅.skip.rest = '/' :: '>' :: tail → ∃ c',
        c'.rest = tail ∧ Reads x (.element ⟨.element ⟨.openingElement ⟨.jsxIdentifier "a", c₁.spanTo c₂ x.file⟩
          (some [⟨.jsxAttribute ⟨.jsxIdentifier "b", c₂.spanTo c₃ x.file⟩ (some value),
            Node.spanUpTo ⟨.jsxIdentifier "b", c₂.spanTo c₃ x.file⟩ c₅ x.file⟩]) true,
          c.spanTo c' x.file⟩ none none, c.spanTo c' x.file⟩) .script d c c' := by
  have letters : Whole .jsx (.jsxIdentifier "a") ∧ Whole .jsx (.jsxIdentifier "b") := by decide
  obtain ⟨b, less, rest⟩ := lessAt .script (by decide) front
  have notClosing : b.Stops ["/"] .script := stopsHere (by decide) rest (by decide)
  obtain ⟨c₁, opens, rest₁⟩ := lessAt .jsx (by decide) front
  obtain ⟨c₂, name, rest₂⟩ := nameHere letters.1 (avoidsCons (by decide)) rest₁
  obtain ⟨c₃, own, rest₃⟩ := nameAt letters.2 (avoidsCons (by decide)) (skipBlank rest₂ rfl)
  obtain ⟨c₄, equals, rest₄⟩ := markHere (freeJsx "=" (by decide)) rfl rest₃
  refine ⟨c₁, c₂, c₃, c₄, opens, name, rest₂, own, equals, rest₄, fun {value c₅} assigned front₅ => ?_⟩
  obtain ⟨c₆, c', slash, closed, rest'⟩ := slashGreater front₅
  have ends : ∀ ps, c₂.Stops ps .jsx := fun ps => stopsOf own fun _ _ same => by cases same
  have nameless : ∀ s b, c₅.next? .jsx ≠ some (.jsxIdentifier s, b) := fun s b next => by rw [slash] at next; cases next
  have valued := Reads.valuedAttribute (.simple own (stopsHere (by decide) rest₃ (by decide))) equals assigned
  have attributes := Reads.attributes valued (.noAttribute (stopsOf slash (by simp)) nameless)
  exact ⟨c', rest', .selfClosing less notClosing room opens (.chain name (ends _) (.stop (ends _))) attributes slash closed⟩

theorem taggedElement (name : NameFormed true own) (formedAll : ∀ a ∈ as, Formed .attribute a)
    (formed : ∀ n ∈ ns, Formed .child n) (apart : TextsApart ns) (closingName : NameFormed true closing)
    (same : own.sameName closing = true) (eachAttribute : ∀ a ∈ as, Attributed x a) (each : ∀ n ∈ ns, Held x n) :
    Tagged x m ⟨.element ⟨.openingElement own (presentList as) false, span⟩ (some ⟨.closingElement closing, span'⟩)
      (presentList ns), span''⟩ := by
  intro d c tail fits front
  obtain ⟨room, belowAll, below⟩ := (Node.fitsElement name closingName).mp fits
  rw [Node.charsElement] at front
  simp only [List.cons_append, List.append_assoc, List.nil_append] at front
  obtain ⟨b, c₁, z, c₂, less, notClosing, opens, rest₂, alike, reads⟩ :=
    tagOpens m name (tagEndsName formedAll (.inr ⟨_, rfl⟩)) front
  obtain ⟨zs, c₃, rest₃, alikeAll, readsAll⟩ := restoredAttributes formedAll eachAttribute belowAll (.inr ⟨_, rfl⟩) rest₂
  obtain ⟨c₄, opened, rest₄⟩ := markHere (freeJsx ">" (by decide)) rfl rest₃
  obtain ⟨ys, c₅, rest₅, alikeChildren, readsChildren⟩ :=
    restoredChildren formed apart each below (nameUncommented closingName) rest₄
  obtain ⟨c₆, c₇, y, c₈, c₉, closes, slash, alikeClosing, readsClosing, closed, rest₉⟩ := tagCloses x closingName rest₅
  have same' : z.sameName y = true := by rw [alike.sameName alikeClosing, same]
  refine .inr ⟨_, c₉, rest₉, Node.alikeForms.mpr ?_, .element less notClosing room opens reads readsAll opened
    readsChildren closes slash readsClosing closed same'⟩
  simp only [Form.map, Node.withoutSpansEq, Option.map_some, alikeAll.present, alikeChildren.present,
    show z.withoutSpans = own.withoutSpans from alike, show y.withoutSpans = closing.withoutSpans from alikeClosing]

theorem openerMarkup (allowed : x.config.jsx = true) (formed : Formed (.markup .script) n) (tagged : Tagged x .script n) :
    Opener x n := by
  intro d c tail fits front parts
  obtain ⟨es, text⟩ := taggedFirst formed
  have signless : c.Stops prefixOperators .script :=
    stopsFirst (e := '<') (by rw [front, text, List.cons_append]) (by decide)
  obtain ⟨z, b, rest, alike, reads⟩ | ⟨z, b, rest, alike, reads⟩ := tagged fits front
  · exact ⟨signless, z, b, rest, alike, fun _ _ more => .chain (.fragmentPrimary allowed reads) more⟩
  · exact ⟨signless, z, b, rest, alike, fun _ _ more => .chain (.elementPrimary allowed reads) more⟩

end Tags

end JsxTree.Grammar
