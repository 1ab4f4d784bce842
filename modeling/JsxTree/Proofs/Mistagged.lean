import JsxTree.Proofs.Doomed
import JsxTree.Proofs.Hosted
import JsxTree.Proofs.Naming
import JsxTree.Proofs.Rejections
import JsxTree.Proofs.Tiling

/-! Closing tags of another name. Where the name in a closing tag is replaced by another one, all that is in front of it
is read as before, and the tag does not match. -/
namespace JsxTree

open Lexeme

section Names

variable {n a b : Node} {s : String} {file : Option String} {m : Mode} {c c' : Cursor}

theorem partAlone (own : c.next? .jsx = some (.jsxIdentifier s, c')) : Avoids (isWordPart .jsx) c'.rest := by
  simp only [Cursor.next?, Option.map_eq_some_iff, Prod.mk.injEq] at own
  obtain ⟨l, found, kind, rfl⟩ := own
  obtain ⟨f, es, -, -, rfl⟩ := wordOf found (by rw [kind]; rfl)
  exact avoidsDropWhile (isWordPart .jsx) es

theorem partFirst (own : c.next? .jsx = some (.jsxIdentifier s, c')) :
    ∃ e es, isIdentifierStart e = true ∧ c.skip.rest = e :: (es ++ c'.rest) := by
  simp only [Cursor.next?, Option.map_eq_some_iff, Prod.mk.injEq] at own
  obtain ⟨l, found, kind, rfl⟩ := own
  obtain ⟨f, es, text, start, rfl⟩ := wordOf found (by rw [kind]; rfl)
  refine ⟨f, es.takeWhile (isWordPart .jsx), start, ?_⟩
  rw [text, show (word .jsx f es).rest = es.dropWhile (isWordPart .jsx) from rfl, List.takeWhile_append_dropWhile]

theorem Grammar.ReadsMembers.alone {object : Node} (h : ReadsMembers file object c n c')
    (front : Avoids (isWordPart .jsx) c.rest) : Avoids (isWordPart .jsx) c'.rest := by
  induction h with
  | stop => exact front
  | step _ own _ ih => exact ih (partAlone own)

theorem Grammar.ReadsName.alone {chained : Bool} (h : ReadsName file chained n c c') :
    Avoids (isWordPart .jsx) c'.rest := by
  cases h with
  | simple own | namespaced _ _ own => exact partAlone own
  | chain own _ members => exact members.alone (partAlone own)

theorem Grammar.ReadsName.first {chained : Bool} (h : ReadsName file chained n c c') :
    ∃ e es, isIdentifierStart e = true ∧ c.skip.rest = e :: es ++ c'.rest := by
  have further : ∀ {s c₁}, c.next? .jsx = some (.jsxIdentifier s, c₁) → c₁.Reaches c' →
      ∃ e es, isIdentifierStart e = true ∧ c.skip.rest = e :: es ++ c'.rest := by
    intro s c₁ own later
    obtain ⟨e, es, start, front⟩ := partFirst own
    obtain ⟨raw, rest, -⟩ := later
    exact ⟨e, es ++ raw, start, by rw [front, rest, List.cons_append, List.append_assoc]⟩
  cases h with
  | simple own => exact further own (Cursor.reachesRefl _)
  | chain own _ members => exact further own members.reaches
  | namespaced space colon own => exact further space ((Cursor.nextReaches colon).trans (Cursor.nextReaches own))

def tagName? (text : String) : Option Node :=
  match Grammar.name true ((Parser.start text {} none).setMode .jsx) with
  | .ok (some n) p => if p.scanner.cursor.rest.isEmpty && n.nameText == some text then some n else none
  | _ => none

theorem tagNameFormed {text : String} (h : tagName? text = some n) : NameFormed true n ∧ n.nameText = some text := by
  have rests := (Grammar.startRests text {} none).setMode .jsx
  have met := Grammar.meetsName true rests.stands
  unfold tagName? at h
  unfold Parser.Meets at met
  split at h
  · rename_i z p ran
    rw [ran] at met
    obtain ⟨c', reads, -⟩ := met
    split at h
    · rename_i whole
      rw [Bool.and_eq_true, beq_iff_eq] at whole
      cases h
      exact ⟨reads.formed, whole.2⟩
    · cases h
  · cases h

theorem tagNameOf {text : String} (formed : NameFormed true n) (written : n.nameText = some text) :
    ∃ z, tagName? text = some z ∧ z.Alike n := by
  have front : (Cursor.start text).skip.rest = n.chars ++ [] := by
    obtain ⟨e, es, first, start⟩ := formed.first
    have whole : (Cursor.start text).rest = e :: es := by rw [← first, formed.chars written]; rfl
    rw [Cursor.skipFirst (startUnblank start) (startOther start '/' (by decide)) whole, whole, first, List.append_nil]
  have ends : EndsName [] := ⟨avoidsNil, fun b nothing => Cursor.stopsNothing (Cursor.nextNothing nothing)⟩
  obtain ⟨z, b, rest, alike, reads⟩ := formed.reads none front ends
  have run := Grammar.yieldsName (x := ⟨{}, none⟩) (d := 0) reads _ ((Grammar.startRests text {} none).setMode .jsx)
  unfold Parser.Meets at run
  unfold tagName?
  cases ran : Grammar.name true ((Parser.start text {} none).setMode .jsx) with
  | ok r p =>
      rw [ran] at run
      obtain ⟨rfl, rests⟩ := run
      have nothing : p.scanner.cursor.rest = [] := by rw [rests.scanner.cursor, rest]
      exact ⟨z, by simp [nothing, alike.nameText, written], alike⟩
  | error e p =>
      rw [ran] at run
      cases e <;> exact run.elim

example : (tagName? "a.b-c").isSome ∧ (tagName? "a:b").isSome ∧ tagName? "a .b" = none ∧ tagName? "a.b:c" = none := by
  decide +kernel

end Names

structure ClosingTag (ks ds name back : List Char) : Prop where
  slash : (Trivia.split (ks ++ '/' :: (ds ++ (name ++ back)))).2 = '/' :: (ds ++ (name ++ back))
  apart : Avoids (fun e => e == '/' || e == '*') (ds ++ (name ++ back))
  named : (Trivia.split (ds ++ (name ++ back))).2 = name ++ back
  starts : ∃ e es, name = e :: es ∧ isIdentifierStart e = true
  ends : EndsName back
  closed : ∀ b : Cursor, b.rest = back → ∃ b', b.Takes .jsx ">" b'

namespace ClosingTag

variable {ks ds name name' back : List Char} {file : Option String} {n : Node} {b : Cursor}

theorem renamed (h : ClosingTag ks ds name back) (starts : ∃ e es, name' = e :: es ∧ isIdentifierStart e = true) :
    ClosingTag ks ds name' back := by
  obtain ⟨slash, apart, named, ⟨f, fs, rfl, old⟩, ends, closed⟩ := h
  obtain ⟨e, es, rfl, start⟩ := starts
  have solid : Trivia.splitPiece (e :: es ++ back) = none :=
    splitPieceNone (startUnblank start) (startOther start '/' (by decide))
  have apart' : Avoids (fun e => e == '/' || e == '*') (ds ++ (e :: es ++ back)) := by
    cases ds with
    | nil =>
        refine avoidsCons ?_
        have other : e ≠ '*' := by
          rintro rfl
          exact absurd start (by decide)
        simp [startOther start '/' (by decide), other]
    | cons => exact apart
  -- No line comment ends with a name, so that none in front of it goes on.
  have keeps : Avoids (!Trivia.endsLine ·) (f :: fs ++ back) → Avoids (!Trivia.endsLine ·) (e :: es ++ back) := by
    intro stop
    have ended : Trivia.endsLine f = true := by simpa using stop f rfl
    simp only [Trivia.endsLine, Bool.or_eq_true, beq_iff_eq] at ended
    rcases ended with rfl | rfl
    · exact absurd old (by decide)
    · exact absurd old (by decide)
  have keeps' : Avoids (!Trivia.endsLine ·) ('/' :: (ds ++ (f :: fs ++ back))) →
      Avoids (!Trivia.endsLine ·) ('/' :: (ds ++ (e :: es ++ back))) := id
  refine ⟨?_, apart', ?_, ⟨e, es, rfl, start⟩, ends, closed⟩
  · rw [@Trivia.splitAgain _ _ [] _ _ keeps' (splitPieceSlash apart') rfl slash]
    rfl
  · rw [@Trivia.splitAgain _ _ [] _ _ keeps solid rfl named]
    rfl

theorem reads (h : ClosingTag ks ds n.chars back) (formed : NameFormed true n) (file : Option String)
    (front : b.rest = '<' :: (ks ++ '/' :: (ds ++ (n.chars ++ back)))) :
    ∃ b₁ b₂ z b₃ b₄, b.Takes .jsx "<" b₁ ∧ b₁.Takes .jsx "/" b₂ ∧ b₂.skip.rest = n.chars ++ b₃.rest ∧ b₃.rest = back ∧
      z.Alike n ∧ Grammar.ReadsName file true z b₂ b₃ ∧ b₃.Takes .jsx ">" b₄ := by
  obtain ⟨b₁, less, rest₁⟩ := Cursor.markHere (freeJsx "<" (by decide)) rfl front
  have slash : b₁.skip.rest = '/' :: (ds ++ (n.chars ++ back)) := by simp only [Cursor.skip, rest₁, h.slash]
  obtain ⟨b₂, slash', rest₂⟩ := Grammar.slashAt h.apart slash
  have named : b₂.skip.rest = n.chars ++ back := by simp only [Cursor.skip, rest₂, h.named]
  obtain ⟨z, b₃, rest₃, alike, reads⟩ := formed.reads file named h.ends
  obtain ⟨b₄, closed⟩ := h.closed b₃ rest₃
  exact ⟨b₁, b₂, z, b₃, b₄, less, slash', rest₃.symm ▸ named, rest₃, alike, reads, closed⟩

end ClosingTag

namespace Grammar

open Cursor JsxTree.Parser

variable {x : Setting} {file : Option String} {closing : Node} {c₅ c₆ c₇ c₈ c' : Cursor}

theorem closingTagParts (textless : c₅.text? = none) (closes : c₅.Takes .jsx "<" c₆) (slash : c₆.Takes .jsx "/" c₇)
    (name : ReadsName file true closing c₇ c₈) (closed : c₈.Takes .jsx ">" c') : ∃ ks ds word,
      ClosingTag ks ds word c₈.rest ∧ c₅.rest = '<' :: (ks ++ '/' :: (ds ++ (word ++ c₈.rest))) ∧
        c₇.skip.rest = word ++ c₈.rest := by
  have less : c₅.rest = '<' :: c₆.rest := by
    have front : c₅.skip.rest = '<' :: c₆.rest := (nextTraces closes).1.1
    rwa [textlessSkip textless] at front
  have mark : c₆.skip.rest = '/' :: c₇.rest := (nextTraces slash).1.1
  obtain ⟨ks, through, -⟩ := c₆.reachesSkip
  obtain ⟨ds, through', -⟩ := c₇.reachesSkip
  obtain ⟨e, es, start, named⟩ := name.first
  rw [mark] at through
  rw [named] at through'
  have further : ∀ b : Cursor, b.rest = c₈.rest → ∃ b', b.Takes .jsx ">" b' := by
    intro b rest
    obtain ⟨b', greater, -⟩ := nextSame (skipSame rest) closed
    exact ⟨b', greater⟩
  refine ⟨ks, ds, e :: es, ⟨?_, ?_, ?_, ⟨e, es, rfl, start⟩, ⟨name.alone, ?_⟩, further⟩, ?_, named⟩
  · rw [← through', ← through]
    exact mark
  · rw [← through']
    exact slashApart slash
  · rw [← through']
    exact named
  · intro b rest
    obtain ⟨b', greater⟩ := further b rest
    exact stopsOf greater (by decide)
  · rw [less, through, through']

def retagging (ks ds word word' back : List Char) : Cut where
  old := '<' :: (ks ++ '/' :: (ds ++ (word ++ back)))
  new := '<' :: (ks ++ '/' :: (ds ++ (word' ++ back)))
  fits := by
    refine .inr ⟨'<', (ks ++ ['/']).head (by simp), by decide, ?_, ?_⟩
    · cases ks <;> simp
    · cases ks <;> simp

variable {b : Cursor} {ks ds word back front : List Char} {source text opening edited : String} {own other : Node}

theorem retaggedReads (tag : ClosingTag ks ds word back) (formed : NameFormed true other)
    (written : other.nameText = some text) (here : c₅.rest = (retagging ks ds word text.toList back).old)
    (clipped : c₅.Clipped (retagging ks ds word text.toList back) b) :
    ∃ b₁ b₂ z b₃ b₄, b.Takes .jsx "<" b₁ ∧ b₁.Takes .jsx "/" b₂ ∧ b₂.skip.rest = text.toList ++ b₃.rest ∧
      b₃.rest = back ∧ z.Alike other ∧ ReadsName file true z b₂ b₃ ∧ b₃.Takes .jsx ">" b₄ := by
  have front := @clippedAlike _ _ _ [] clipped here
  rw [← formed.chars written] at front ⊢
  exact (tag.renamed formed.first).reads formed file front

theorem retaggedCaught (tag : ClosingTag ks ds word back) (opened : own.nameText = some opening)
    (formed : NameFormed true other) (written : other.nameText = some text) (differ : own.sameName other = false)
    (here : c₅.rest = (retagging ks ds word text.toList back).old)
    (whole : edited.toList = front ++ (text.toList ++ back)) :
    Caught (retagging ks ds word text.toList back) edited x
      (fun e => e.kind = .mismatchedClosingTag opening text ∧ e.span = .ofText front text.toList x.file) own c₅ := by
  refine ⟨⟨[], here.symm⟩, fun b related => ?_, fun d alike related => ?_⟩
  · obtain ⟨b₁, b₂, _, _, _, less, slash, -⟩ := @retaggedReads x.file _ _ _ _ _ _ _ _ tag formed written here related.1
    exact ⟨b₁, b₂, less, slash⟩
  · obtain ⟨b₁, b₂, z, b₃, b₄, less, slash, named, rest, alike', name, closed⟩ :=
      @retaggedReads x.file _ _ _ _ _ _ _ _ tag formed written here related.1
    refine mismatchFails less slash name closed ((alike.sameName alike').trans differ) ⟨?_, ?_⟩
    · simp only [mismatchedClosingTag, alike.nameText, alike'.nameText, opened, written, Option.getD_some]
    · have within := ((nextReaches less).trans (nextReaches slash)).within related.2
      have span := name.span
      rwa [within.spans name.skipReaches front text.toList named (by rw [named, rest, whole])] at span

theorem samePlace {a a' b b' : Cursor} (within : a.Within source) (within' : b.Within source)
    (textless : a.text? = none) (textless' : b.text? = none) (same : a.spanTo a' file = b.spanTo b' file) : a.rest = b.rest := by
  have starts : a.position = b.position := by
    simpa only [spanTo, textlessSkip textless, textlessSkip textless'] using congrArg Span.start same
  have rest := withinDrops within
  rw [starts, withinDrops within', Option.some.injEq] at rest
  exact rest.symm

end Grammar

def Node.opensAs? (n : Node) : Option Node :=
  match n.form with
  | .element ⟨.openingElement own _ false, _⟩ _ _ => some own
  | _ => none

def Node.closesAs? (n : Node) : Option Node :=
  match n.form with
  | .element _ (some ⟨.closingElement closing, _⟩) _ => some closing
  | _ => none

section Accepted

open Cursor Grammar JsxTree.Parser

variable {source : String} {config : Config} {file : Option String} {tree el own : Node}

theorem closingRead (accepted : parse source config file = .ok tree) (inside : el ∈ tree.preorder)
    (opened : el.opensAs? = some own) : ∃ (c₅ c₆ c₇ c₈ c' : Cursor) (as : List Node) (closing : Node) (span : Span)
      (ns : Option (List Node)),
      el.form = .element ⟨.openingElement own (presentList as) false, span⟩
        (some ⟨.closingElement closing, c₅.spanTo c' file⟩) ns ∧
      NameFormed true own ∧ c₅.Within source ∧ c₅.text? = none ∧ c₅.Takes .jsx "<" c₆ ∧ c₆.Takes .jsx "/" c₇ ∧
      ReadsName file true closing c₇ c₈ ∧ c₈.Takes .jsx ">" c' := by
  have place := parseSituates accepted el inside
  obtain ⟨form, span⟩ := el
  cases form with
  | element =>
      obtain ⟨m, d, c, c', within, -, reads⟩ := place
      cases reads with
      | selfClosing => cases opened
      | element _ _ _ opens name attributes opened' children closes slash closingName closed _ =>
          cases opened
          have reaches := (nextReaches opens).trans (name.advances.reaches.trans
            (Reaches.trans (Reads.goes attributes) ((nextReaches opened').trans (Reads.goes children))))
          exact ⟨_, _, _, _, _, _, _, _, _, rfl, name.formed, reaches.within within, childrenTextless children, closes,
            slash, closingName, closed⟩
  | _ => cases opened

/-- A closing tag of another name does not match, whatever stands around the element and whatever follows. -/
theorem wrongClosingTagCaught (accepted : parse source config file = .ok tree) (inside : el ∈ tree.preorder)
    (opened : el.opensAs? = some own) :
    ∃ opening closing front name back, own.nameText = some opening ∧ el.closesAs? = some closing ∧
      closing.span = .ofText front name file ∧ source.toList = front ++ name ++ back ∧
      ∀ text other, tagName? text = some other → own.sameName other = false →
        ∃ e, parse (String.ofList (front ++ text.toList ++ back)) config file = .error (.error e) ∧
          e.kind = .mismatchedClosingTag opening text ∧ e.span = .ofText front text.toList file := by
  obtain ⟨c₅, c₆, c₇, c₈, c', as, closing, span, ns, form, formed, within, textless, closes, slash, name, closed⟩ :=
    closingRead accepted inside opened
  obtain ⟨opening, written⟩ := formed.written
  obtain ⟨ks, ds, word, tag, here, named⟩ := closingTagParts textless closes slash name closed
  obtain ⟨before, whole, -⟩ := within.offset
  have split : source.toList = (before ++ '<' :: (ks ++ '/' :: ds)) ++ c₇.skip.rest := by
    rw [whole, here, named]
    simp
  generalize ahead : before ++ '<' :: (ks ++ '/' :: ds) = front at split
  have within₇ := ((nextReaches closes).trans (nextReaches slash)).within within
  refine ⟨opening, closing, front, word, c₈.rest, written, ?_, ?_, ?_, fun text other isName differ => ?_⟩
  · rw [Node.closesAs?, form]
  · rw [name.span, within₇.spans name.skipReaches front word named split]
  · rw [split, named, List.append_assoc]
  obtain ⟨formed', written'⟩ := tagNameFormed isName
  -- The edited text is cut at the closing tag: everything in front of it is read as in the source, and the tag fails.
  let cut := retagging ks ds word text.toList c₈.rest
  generalize edit : String.ofList (front ++ text.toList ++ c₈.rest) = edited
  have edited' : edited.toList = front ++ (text.toList ++ c₈.rest) := by
    rw [← edit, String.toList_ofList, List.append_assoc]
  have beside : (cut.beside edited).rel (.start source) (.start edited) := by
    refine ⟨⟨before, whole.trans (by rw [here]; rfl), ?_⟩, startWithin edited⟩
    change edited.toList = _
    rw [edited', ← ahead]
    simp [cut, retagging]
  have caught : ∀ {a a' close},
      some (⟨.closingElement closing, c₅.spanTo c' file⟩ : Node) = some ⟨.closingElement close, a.spanTo a' file⟩ →
      a.Within source → a.text? = none → Caught cut edited ⟨config, file⟩
        (fun e => e.kind = .mismatchedClosingTag opening text ∧ e.span = .ofText front text.toList file) own a := by
    intro a a' close alike within' textless'
    have spans := congrArg Node.span (Option.some.inj alike)
    have same := samePlace within' within textless' textless spans.symm
    exact retaggedCaught tag written formed' written' differ (same.trans here) edited'
  obtain ⟨c'', reads, -⟩ := (parseIff source config file tree).mp accepted
  have doomed := reads.doomed (startWithin source) form caught inside
  exact parseFails fun budget enough => doomed.trips beside budget enough

theorem wrongClosingTagCaughtNested : ∃ tree el own other e, parse "<a><b.c>x</b.c></a>" {} none = .ok tree ∧
    el ∈ tree.preorder ∧ el.opensAs? = some own ∧ tagName? "b:c" = some other ∧ own.sameName other = false ∧
    parse "<a><b.c>x</b:c></a>" {} none = .error (.error e) ∧ e.kind = .mismatchedClosingTag "b.c" "b:c" ∧
    e.span = .ofText "<a><b.c>x</".toList "b:c".toList none := by
  obtain ⟨tree, accepted, holds⟩ : ∃ tree, parse "<a><b.c>x</b.c></a>" {} none = .ok tree ∧
      (tree.preorder.any fun el => (el.opensAs?.any fun own => own.nameText == some "b.c" &&
        (tagName? "b:c").any fun other => !own.sameName other) && el.closesAs?.any fun closing =>
          closing.span.start.offset == 11 && closing.span.stop.offset == 14) = true :=
    acceptedOf (by decide +kernel)
  obtain ⟨el, inside, here⟩ := List.any_eq_true.mp holds
  simp only [Bool.and_eq_true, Option.any_eq_true, beq_iff_eq, Bool.not_eq_true'] at here
  obtain ⟨⟨own, opened, written, other, isName, differ⟩, close, closes, start, stop⟩ := here
  obtain ⟨opening, closing, front, name, back, written', closes', span, whole, caught⟩ :=
    wrongClosingTagCaught accepted inside opened
  rw [closes, Option.some.injEq] at closes'
  subst closes'
  rw [written, Option.some.injEq] at written'
  subst written'
  rw [span] at start stop
  have cut : some front = Text.takeBytes 11 "<a><b.c>x</b.c></a>".toList := by
    rw [whole, List.append_assoc, ← start]
    exact (Text.takeBytesAppend front (name ++ back)).symm
  have rest : some back = Text.dropBytes 14 "<a><b.c>x</b.c></a>".toList := by
    rw [whole, ← stop]
    exact (Text.dropBytesAppend (front ++ name) back).symm
  have before : front = "<a><b.c>x</".toList := Option.some.inj (cut.trans (by decide +kernel))
  have after : back = "></a>".toList := Option.some.inj (rest.trans (by decide +kernel))
  obtain ⟨e, refused, kind, place⟩ := caught "b:c" other isName differ
  rw [before, after] at refused
  rw [before] at place
  exact ⟨tree, el, own, other, e, accepted, inside, opened, isName, differ, refused, kind, place⟩

end Accepted

end JsxTree
