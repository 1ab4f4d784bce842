import JsxTree.Proofs.Lexemes

/-! Where tokens begin and end. A carriage return and the line feed behind it are one line break, and no token comes apart
from another one between the two. -/
namespace JsxTree

namespace Lexeme

variable {m : Mode} {cs raw rest : List Char} {l : Lexeme} {q : Char}

theorem takeReturnless {p : Char → Bool} (other : p '\r' = false) (cs : List Char) : '\r' ∉ cs.takeWhile p := by
  intro inside
  have taken := ofTakeWhile p cs '\r' inside
  rw [other] at taken
  cases taken

theorem wordReturnless {f : Char} (start : isIdentifierStart f = true) : '\r' ∉ (word m f cs).raw := by
  have part : isWordPart m '\r' = false := by simp [isWordPart, blankPart (c := '\r') (by decide)]
  have first : '\r' ≠ f := by
    rintro rfl
    have solid := startUnblank start
    cases solid
  simp only [word, List.mem_cons, not_or]
  exact ⟨first, takeReturnless part cs⟩

theorem fractionReturnless (cs : List Char) : '\r' ∉ (splitFraction cs).1 := by
  fun_cases splitFraction cs with
  | case1 cs =>
      simp only [List.mem_cons, not_or]
      exact ⟨by decide, takeReturnless (by decide) cs⟩
  | case2 => exact List.not_mem_nil

theorem signReturnless (cs : List Char) : '\r' ∉ (splitSign cs).1 := by
  cases cs with
  | nil => exact List.not_mem_nil
  | cons c cs =>
      simp only [splitSign]
      split
      · rename_i sign
        intro same
        rw [← List.mem_singleton.mp same] at sign
        cases sign
      · exact List.not_mem_nil

theorem exponentReturnless (cs : List Char) : '\r' ∉ (splitExponent cs).1 := by
  cases cs with
  | nil => exact List.not_mem_nil
  | cons e cs =>
      simp only [splitExponent]
      split
      · rename_i found
        have mark : '\r' ≠ e := by
          rintro rfl
          cases found
        simp only [List.cons_append, List.mem_cons, List.mem_append, not_or]
        exact ⟨mark, signReturnless cs, takeReturnless (by decide) _⟩
      · exact List.not_mem_nil

theorem decimalReturnless (cs : List Char) : '\r' ∉ (splitDecimal cs).1 := by
  simp only [splitDecimal, List.mem_append, not_or]
  exact ⟨⟨takeReturnless (by decide) cs, fractionReturnless _⟩, exponentReturnless _⟩

theorem numberReturnless (cs : List Char) : '\r' ∉ (number cs).raw := by
  have digits : '\r' ∉ (splitNumber cs).1 := by
    unfold splitNumber
    split
    · split
      · rename_i mark
        have radix : ∀ c, isRadixMark c = true → '\r' ≠ c := by
          rintro c found rfl
          cases found
        simp only [List.mem_cons, not_or]
        exact ⟨by decide, radix _ mark, takeReturnless (by decide) _⟩
      · exact decimalReturnless _
    · exact decimalReturnless _
  simp only [number]
  split
  · simp only [invalid, List.mem_append, not_or]
    exact ⟨digits, takeReturnless (blankPart (by decide)) _⟩
  · exact digits

theorem punctuatorReturnless {f : Char} (solid : Trivia.splitPiece (f :: cs) = none) : '\r' ∉ (punctuator m f cs).raw := by
  have known : ∀ m, ∀ p ∈ punctuators m, '\r' ∉ p.toList := by
    intro m
    cases m <;> decide
  unfold punctuator
  split
  · rename_i p found
    exact known m p (punctuatorFound found).1
  · intro same
    cases List.mem_singleton.mp same
    have blank : Trivia.isBlank '\r' = true := by decide
    simp [Trivia.splitPiece, blank] at solid

def Seamed (raw rest : List Char) : Prop := raw.getLast? = some '\r' → Avoids (· == '\n') rest

theorem seamedWithout (without : '\r' ∉ raw) : Seamed raw rest := fun last => absurd (List.mem_of_getLast? last) without

theorem seamedCons {c : Char} (more : Seamed raw rest) (alone : raw = [] → Seamed [c] rest) : Seamed (c :: raw) rest := by
  cases raw with
  | nil => exact alone rfl
  | cons e es =>
      intro last
      rw [List.getLast?_cons_cons] at last
      exact more last

theorem escapedSeamed (mark : q ≠ '\r') (cs : List Char) : Seamed (splitEscaped q cs).raw (splitEscaped q cs).rest := by
  have single : ∀ {c : Char} {rest : List Char}, c ≠ '\r' → Seamed [c] rest :=
    fun other => seamedWithout fun inside => other (List.mem_singleton.mp inside).symm
  have joined : ∀ {c e : Char} {es rest : List Char}, Seamed (e :: es) rest → Seamed (c :: e :: es) rest :=
    fun more => seamedCons more fun empty => absurd empty (List.cons_ne_nil _ _)
  fun_induction splitEscaped q cs with
  | case1 => exact seamedWithout List.not_mem_nil
  | case2 cs ih => exact joined (joined (seamedCons ih fun _ => single (by decide)))
  | case3 c cs apart ih =>
      refine joined (seamedCons ih fun empty last e head => ?_)
      have whole := splitEscapedSplits q cs
      rw [empty, List.nil_append] at whole
      obtain ⟨es, rest⟩ := List.head?_eq_some_iff.mp head
      refine Bool.eq_false_iff.mpr fun feed => apart es (by simpa using last) ?_
      rw [whole, ← eq_of_beq feed]
      exact rest
  | case4 c cs _ _ close => exact single (by rw [eq_of_beq close]; exact mark)
  | case5 => exact seamedWithout List.not_mem_nil
  | case6 c cs _ _ _ inside ih =>
      refine seamedCons ih fun _ => single ?_
      rintro rfl
      exact inside rfl

theorem plainSeamed (mark : q ≠ '\r') (cs : List Char) : Seamed (splitPlain q cs).raw (splitPlain q cs).rest := by
  have ends : (splitPlain q cs).raw.getLast? = some q ∨ (splitPlain q cs).rest = [] := by
    fun_induction splitPlain q cs with
    | case1 => exact .inr rfl
    | case2 c cs close => exact .inl (by rw [eq_of_beq close]; rfl)
    | case3 c cs _ ih =>
        rcases ih with closed | ended
        · refine .inl ?_
          obtain ⟨es, raw⟩ := List.getLast?_eq_some_iff.mp closed
          exact List.getLast?_eq_some_iff.mpr ⟨c :: es, congrArg (c :: ·) raw⟩
        · exact .inr ended
  intro last
  rcases ends with closed | ended
  · rw [closed] at last
    exact absurd (Option.some.inj last) mark
  · rw [ended]
    exact avoidsNil

theorem quotedSeamed (mark : q ≠ '\r') (cs : List Char) : Seamed (quoted m q cs).raw (quoted m q cs).rest := by
  have opened : ∀ body : Body, Seamed body.raw body.rest → Seamed (q :: body.raw) body.rest := fun body inside =>
    seamedCons inside fun _ => seamedWithout fun same => mark (List.mem_singleton.mp same).symm
  have body : ∃ body : Body, Seamed body.raw body.rest ∧
      (quoted m q cs).raw = q :: body.raw ∧ (quoted m q cs).rest = body.rest := by
    unfold quoted
    dsimp only
    split
    · exact ⟨_, plainSeamed mark cs, by split <;> rfl, by split <;> rfl⟩
    · exact ⟨_, escapedSeamed mark cs, by split <;> rfl, by split <;> rfl⟩
  obtain ⟨body, inside, raw, rest⟩ := body
  rw [raw, rest]
  exact opened body inside

theorem nextSeamed (h : next? m cs = some l) (solid : Trivia.splitPiece cs = none) : Seamed l.raw l.rest := by
  cases cs with
  | nil => cases h
  | cons c cs =>
      simp only [next?, Option.some.injEq] at h
      subst h
      split
      · exact fun _ => avoidsNil
      · split
        · rename_i start
          exact seamedWithout (wordReturnless start)
        · split
          · exact seamedWithout (numberReturnless _)
          · split
            · rename_i quote
              have mark : c ≠ '\r' := by
                rintro rfl
                cases quote
              exact quotedSeamed mark cs
            · exact seamedWithout (punctuatorReturnless solid)

end Lexeme

namespace Cursor

open Lexeme

variable {m : Mode} {k : Token.Kind} {raw : List Char} {c c' : Cursor}

/-- The cursor stands at no line feed that goes on a line break. -/
def Unsplit (c : Cursor) : Prop := c.place.afterReturn = true → Avoids (· == '\n') c.rest

theorem startUnsplit (source : String) : (start source).Unsplit := fun no => by cases no

theorem solidUnsplit (solid : Trivia.splitPiece c.rest = none) : c.Unsplit := by
  intro _ e head
  obtain ⟨es, rest⟩ := List.head?_eq_some_iff.mp head
  refine Bool.eq_false_iff.mpr fun feed => ?_
  have blank : Trivia.isBlank '\n' = true := by decide
  rw [rest, eq_of_beq feed] at solid
  simp [Trivia.splitPiece, blank] at solid

theorem skipUnsplit (c : Cursor) : c.skip.Unsplit := solidUnsplit (Trivia.splitMaximal c.rest)

theorem pastReturn {place : Place} (nonempty : raw ≠ []) : (place.past raw).afterReturn = decide (raw.getLast? = some '\r') := by
  have next : ∀ (place : Place) (c : Char), (place.next c).afterReturn = decide (c = '\r') := by
    intro place c
    unfold Place.next
    split
    · rename_i joined
      rw [joined.1]
      rfl
    · split
      · rfl
      · rename_i other
        have apart : c ≠ '\r' := by
          rintro rfl
          exact other rfl
        exact (decide_eq_false apart).symm
  obtain ⟨front, last, rfl⟩ := List.eq_nil_or_concat raw |>.resolve_left nonempty
  rw [List.concat_eq_append, Place.pastAppend, Place.pastCons, Place.pastNil, next]
  simp

theorem nextUnsplit (h : c.next? m = some (k, c')) : c'.Unsplit := by
  simp only [next?, Option.map_eq_some_iff, Prod.mk.injEq] at h
  obtain ⟨l, found, -, rfl⟩ := h
  intro behind
  rw [pastReturn (nextCuts found).nonempty, decide_eq_true_eq] at behind
  exact nextSeamed found (Trivia.splitMaximal c.rest) behind

theorem textUnsplit {text : String} (h : c.text? = some (text, c')) : c'.Unsplit := by
  intro _ e head
  rw [(textCut h).2] at head
  have ends := List.head?_dropWhile_not (!endsText ·) c.rest
  rw [head] at ends
  refine Bool.eq_false_iff.mpr fun feed => ?_
  rw [eq_of_beq feed] at ends
  cases ends

end Cursor

end JsxTree
