import JsxTree.Proofs.Completeness
import JsxTree.Proofs.Heads

/-! What texts in normal form come to when they are read: which punctuators cannot come next, names,
and an operand on its way up the ladder of operators. -/
namespace JsxTree

namespace Node

def AllAlike (as bs : List Node) : Prop := as.map withoutSpans = bs.map withoutSpans

section Alike

variable {a a' b b' : Node} {as bs : List Node} {o s : String} {span span' own own' : Span}

theorem allAlikeCons (first : a.Alike b) (more : AllAlike as bs) : AllAlike (a :: as) (b :: bs) := by
  simp only [AllAlike, List.map_cons]
  rw [show a.withoutSpans = b.withoutSpans from first, show as.map withoutSpans = bs.map withoutSpans from more]

theorem AllAlike.present (h : AllAlike as bs) : (Grammar.presentList as).map (List.map withoutSpans) =
    (Grammar.presentList bs).map (List.map withoutSpans) := by
  have both : ∀ ns : List Node, (Grammar.presentList ns).map (List.map withoutSpans) =
      if (ns.map withoutSpans).isEmpty then none else some (ns.map withoutSpans) := by
    intro ns
    cases ns <;> rfl
  rw [both, both, show as.map withoutSpans = bs.map withoutSpans from h]

theorem withoutSpansEq (form : Form Node) (span : Span) :
    (⟨form, span⟩ : Node).withoutSpans = ⟨form.map withoutSpans, .emptyAt .origin⟩ := by
  rw [withoutSpans, foldEq]
  rfl

theorem sameNameEq (form : Form Node) (span : Span) (b : Node) :
    (⟨form, span⟩ : Node).sameName b = (form.map sameName).sameName b := by
  rw [sameName, foldEq]
  rfl

theorem sameNameSpans (a b : Node) : a.withoutSpans.sameName b.withoutSpans = a.sameName b := by
  induction a using inductOn generalizing b with
  | step a below =>
      obtain ⟨form, span⟩ := a
      obtain ⟨other, span'⟩ := b
      rw [withoutSpansEq, withoutSpansEq, sameNameEq, sameNameEq, Form.mapMap]
      cases form with
      | jsxIdentifier name => cases other <;> rfl
      | namespacedName space name =>
          have first := below space (by simp [Form.children, Form.slots, Slot.nodes])
          have second := below name (by simp [Form.children, Form.slots, Slot.nodes])
          cases other with
          | namespacedName => simp only [Form.map, Form.sameName, Function.comp, first, second]
          | _ => rfl
      | jsxMember object property =>
          have first := below object (by simp [Form.children, Form.slots, Slot.nodes])
          have second := below property (by simp [Form.children, Form.slots, Slot.nodes])
          cases other with
          | jsxMember => simp only [Form.map, Form.sameName, Function.comp, first, second]
          | _ => rfl
      | _ => rfl

theorem Alike.sameName (h : a.Alike a') (h' : b.Alike b') : a.sameName b = a'.sameName b' := by
  rw [← sameNameSpans, ← sameNameSpans a', show a.withoutSpans = a'.withoutSpans from h,
    show b.withoutSpans = b'.withoutSpans from h']

end Alike

end Node

namespace Cursor

open Lexeme

variable {m : Mode} {b c c' : Cursor} {e : Char} {es tail : List Char} {ps : List String} {raw : String}

theorem stopsFirst (front : c.skip.rest = e :: es) (other : ∀ p ∈ ps, p.toList.head? ≠ some e) : c.Stops ps m := by
  intro p c' next inside
  obtain ⟨⟨rest, -⟩, nonempty⟩ := nextTraces next
  obtain ⟨f, fs, text⟩ := List.exists_cons_of_ne_nil nonempty
  rw [front, text] at rest
  obtain ⟨rfl, -⟩ := List.cons.inj rest
  exact other p inside (congrArg List.head? text)

theorem stopsNothing (nothing : c.next? m = none) : c.Stops ps m := by
  intro p c' next
  rw [nothing] at next
  cases next

theorem skipFirst (solid : Trivia.isBlank e = false) (other : e ≠ '/') (behind : c.rest = e :: es) : c.skip = c :=
  skipSolid (by rw [behind]; exact splitPieceNone solid other)

theorem stopsHere (solid : Trivia.isBlank e = false ∧ e ≠ '/') (behind : c.rest = e :: es)
    (other : ∀ p ∈ ps, p.toList.head? ≠ some e) : c.Stops ps m :=
  stopsFirst (by rw [skipFirst solid.1 solid.2 behind]; exact behind) other

theorem markAt {o : String} (free : Free m o) (one : o.toList = [e]) (front : c.skip.rest = e :: tail) :
    ∃ c', c.Takes m o c' ∧ c'.rest = tail :=
  takesAt free.1 (free.stop tail) (by rw [front, one]; rfl)

theorem markHere {o : String} (free : Free m o) (one : o.toList = [e]) (behind : c.rest = e :: tail) :
    ∃ c', c.Takes m o c' ∧ c'.rest = tail :=
  takesFree free (by rw [behind, one]; rfl)

theorem textAt (nonempty : raw.toList ≠ []) (plain : ∀ e ∈ raw.toList, endsText e = false)
    (stop : Avoids (fun e => !endsText e) tail) (behind : c.rest = raw.toList ++ tail) :
    ∃ c', c.text? = some (raw, c') ∧ c'.rest = tail := by
  have all : ∀ e ∈ raw.toList, (!endsText e) = true := fun e inside => by rw [plain e inside]; rfl
  have run : jsxText? c.rest = some ⟨.jsxText raw, raw.toList, tail⟩ := by
    simp only [jsxText?, behind, takeWhileThen all stop, dropWhileThen all stop, String.ofList_toList]
    rw [if_neg (by simpa using nonempty)]
  refine ⟨⟨c.place.past raw.toList, tail⟩, ?_, rfl⟩
  simp only [text?, run, Option.map_some, String.ofList_toList]

theorem textlessAt (mark : endsText e = true) (behind : c.rest = e :: es) : c.text? = none := by
  rw [textNone, behind]
  exact List.takeWhile_cons_of_neg (by simp [mark])

end Cursor

section Names

open Cursor Lexeme

variable {file : Option String} {n : Node} {s : String} {c : Cursor} {tail : List Char} {chained : Bool}

theorem nameStarts (token : Whole .jsx (.jsxIdentifier s)) :
    ∃ e es, s.toList = e :: es ∧ isIdentifierStart e = true := by
  obtain ⟨e, es, text, start, -⟩ := wordOf token.1 rfl
  exact ⟨e, es, text, start⟩

theorem NameChain.first (h : NameChain n) : ∃ e es, n.chars = e :: es ∧ isIdentifierStart e = true := by
  induction h with
  | own token =>
      rw [Node.charsJsxIdentifier]
      exact nameStarts token
  | member _ _ ih =>
      obtain ⟨e, es, text, start⟩ := ih
      exact ⟨e, _, by rw [Node.charsJsxMember, text, List.cons_append], start⟩

theorem NameFormed.first (h : NameFormed chained n) : ∃ e es, n.chars = e :: es ∧ isIdentifierStart e = true := by
  cases h with
  | simple token =>
      rw [Node.charsJsxIdentifier]
      exact nameStarts token
  | chain members => exact members.first
  | namespaced space _ =>
      obtain ⟨e, es, text, start⟩ := nameStarts space
      exact ⟨e, _, by rw [Node.charsNamespaced, Node.charsJsxIdentifier, text, List.cons_append], start⟩

structure EndsName (tail : List Char) : Prop where
  apart : Avoids (isWordPart .jsx) tail
  stops : ∀ b : Cursor, b.rest = tail → b.Stops [":", "."] .jsx

theorem endsNameFirst {e : Char} (tail : List Char) (plain : isWordPart .jsx e = false ∧ Trivia.isBlank e = false)
    (other : e ≠ '/' ∧ e ≠ ':' ∧ e ≠ '.') : EndsName (e :: tail) where
  apart := avoidsCons plain.1
  stops b behind := by
    refine stopsHere ⟨plain.2, other.1⟩ behind ?_
    simp [other.2.1.symm, other.2.2.symm]

theorem nameAt (token : Whole .jsx (.jsxIdentifier s)) (apart : Avoids (isWordPart .jsx) tail)
    (front : c.skip.rest = s.toList ++ tail) : ∃ c', c.next? .jsx = some (.jsxIdentifier s, c') ∧ c'.rest = tail :=
  nextWhole token apart front

theorem nameHere (token : Whole .jsx (.jsxIdentifier s)) (apart : Avoids (isWordPart .jsx) tail)
    (behind : c.rest = s.toList ++ tail) : ∃ c', c.next? .jsx = some (.jsxIdentifier s, c') ∧ c'.rest = tail := by
  obtain ⟨e, es, text, start⟩ := nameStarts token
  have solid : c.skip = c :=
    skipFirst (startUnblank start) (startOther start '/' (by decide)) (by rw [behind, text, List.cons_append])
  exact nameAt token apart (by rw [solid, behind])

theorem NameChain.opens (h : NameChain n) (file : Option String) (front : c.skip.rest = n.chars ++ tail)
    (apart : Avoids (isWordPart .jsx) tail) (colon : ∀ b : Cursor, b.rest = tail → b.Stops [":"] .jsx) :
    ∃ object b, b.rest = tail ∧ object.Alike n ∧
      ∀ z c', Grammar.ReadsMembers file object b z c' → Grammar.ReadsName file true z c c' := by
  induction h generalizing tail with
  | own token =>
      rw [Node.charsJsxIdentifier] at front
      obtain ⟨b, next, rest⟩ := nameAt token apart front
      exact ⟨_, b, rest, Node.alikeForms.mpr rfl, fun z c' more => .chain next (colon b rest) more⟩
  | @member object s span span' before token ih =>
      rw [Node.charsJsxMember, Node.charsJsxIdentifier, List.append_assoc] at front
      obtain ⟨first, b, rest, alike, reads⟩ := ih front (avoidsCons (wordPartOther _ _ (by decide))) fun b behind =>
        stopsHere (by decide) behind (by decide)
      obtain ⟨e, es, text, start⟩ := nameStarts token
      have point : Avoids (runsOn .jsx (.punctuator ".")) (s.toList ++ tail) := by
        rw [text]
        have digit : e.isDigit = false := Bool.eq_false_iff.mpr fun digit => by
          rw [digitStart digit] at start
          cases start
        exact avoidsCons (by simp [runsOn, followersJsx "." (by decide), digit])
      obtain ⟨b₁, dot, rest₁⟩ := takesHere (o := ".") (by decide) point rest
      obtain ⟨b₂, own, rest₂⟩ := nameHere token apart rest₁
      have alike' : (⟨.jsxMember first ⟨.jsxIdentifier s, b₁.spanTo b₂ file⟩, first.spanUpTo b₂ file⟩ : Node).Alike
          ⟨.jsxMember object ⟨.jsxIdentifier s, span'⟩, span⟩ := by
        refine Node.alikeForms.mpr ?_
        simp only [Form.map, Node.withoutSpansEq, show first.withoutSpans = object.withoutSpans from alike]
      exact ⟨_, b₂, rest₂, alike', fun z c' more => reads z c' (.step dot own more)⟩

theorem NameFormed.reads (h : NameFormed chained n) (file : Option String) (front : c.skip.rest = n.chars ++ tail)
    (ends : EndsName tail) : ∃ z b, b.rest = tail ∧ z.Alike n ∧ Grammar.ReadsName file chained z c b := by
  have stops : ∀ b : Cursor, b.rest = tail → b.Stops [":"] .jsx ∧ b.Stops ["."] .jsx := by
    intro b rest
    have both := ends.stops b rest
    exact ⟨fun p c' next inside => both p c' next (by simp_all), fun p c' next inside => both p c' next (by simp_all)⟩
  cases h with
  | simple token =>
      rw [Node.charsJsxIdentifier] at front
      obtain ⟨b, next, rest⟩ := nameAt token ends.apart front
      exact ⟨_, b, rest, Node.alikeForms.mpr rfl, .simple next (stops b rest).1⟩
  | chain members =>
      obtain ⟨object, b, rest, alike, reads⟩ := members.opens file front ends.apart fun b rest => (stops b rest).1
      exact ⟨object, b, rest, alike, reads object b (.stop (stops b rest).2)⟩
  | namespaced space own =>
      rw [Node.charsNamespaced, Node.charsJsxIdentifier, Node.charsJsxIdentifier, List.append_assoc] at front
      obtain ⟨b₁, next, rest₁⟩ := nameAt space (avoidsCons (wordPartOther _ _ (by decide))) front
      obtain ⟨b₂, colon, rest₂⟩ := markHere (freeJsx ":" (by decide)) rfl rest₁
      obtain ⟨b, next', rest⟩ := nameHere own ends.apart rest₂
      exact ⟨_, b, rest, Node.alikeForms.mpr (by simp only [Form.map, Node.withoutSpansEq]), .namespaced next colon next'⟩

end Names

namespace Grammar

open Cursor JsxTree.Parser

variable {x : Setting} {m : Mode} {d : Nat} {b b₁ b₂ c : Cursor} {l r z : Node} {o : String} {level : Level}
  {looser ls : List Level}

section Ladders

theorem readsLooser (h : Reads x (.ladder ls z) m d c b) (stop : ∀ level ∈ looser, b.Stops level.operators m) :
    Reads x (.ladder (looser ++ ls) z) m d c b := by
  induction looser with
  | nil => exact h
  | cons level looser ih =>
      obtain ⟨first, others⟩ := List.forall_mem_cons.mp stop
      exact .level (ih others) (.noOperand first)

theorem readsLadder (h : Reads x (.unary z) m d c b) (stop : ∀ level ∈ ls, b.Stops level.operators m) :
    Reads x (.ladder ls z) m d c b := by
  have all := readsLooser (.bottom h) stop
  rwa [List.append_nil] at all

theorem levelsApart : levels.Pairwise fun a b => ∀ o ∈ a.operators, o ∉ b.operators := by decide

theorem readsOperation (known? : level ∈ levels) (known : o ∈ level.operators) (left : Reads x (.unary l) m d c b)
    (operator : b.Takes m o b₁) (right : Reads x (.unary r) m d b₁ b₂)
    (stop : ∀ level ∈ levels, b₂.Stops level.operators m) :
    Reads x (.expression ⟨level.join.form o l r, l.spanUpTo b₂ x.file⟩) m d c b₂ := by
  obtain ⟨looser, tighter, whole⟩ := List.append_of_mem known?
  have apart := levelsApart
  rw [whole] at apart stop
  have tightest : ∀ level' ∈ tighter, b.Stops level'.operators m := by
    intro level' member
    have others := (List.pairwise_cons.mp (List.pairwise_append.mp apart).2.1).1 level' member o known
    refine stopsOf operator fun o' member' same => ?_
    cases same
    exact others member'
  have left' := readsLadder left tightest
  have right' := readsLadder right fun level' member =>
    stop level' (List.mem_append_right _ (List.mem_cons_of_mem _ member))
  have ends := stop level (List.mem_append_right _ List.mem_cons_self)
  have both := Reads.level left' (.operand operator known right' (.noOperand ends))
  have all := readsLooser both fun level' member => stop level' (List.mem_append_left _ member)
  rw [← whole] at all
  exact all

end Ladders

end Grammar

end JsxTree
