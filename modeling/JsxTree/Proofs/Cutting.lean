import JsxTree.Proofs.Reread

/-! Texts cut and continued. What is read in front of a cut is read there whether the text ends at the cut or goes on
behind it in another way, with the same two characters: trivia, every valid token and every run of text. -/
namespace JsxTree

/-- A text that goes on in one way, and is to end here or go on in another that cannot be told from the first so soon.
Of the tokens only `>>>=` is longer than that. -/
structure Cut where
  old : List Char
  new : List Char
  fits : new = [] ∨ ∃ e f, e ≠ '>' ∧ [e, f] <+: old ∧ [e, f] <+: new

def Continues (old new : List Char) : Prop := ∀ e, new.head? = some e → old.head? = some e

theorem frontCases {as bs : List Char} (h : bs.take 2 <+: as.take 2) : bs = [] ∨ (∃ a cs, bs = [a] ∧ as = a :: cs) ∨
    ∃ a b cs ds, bs = a :: b :: ds ∧ as = a :: b :: cs := by
  rcases bs with _ | ⟨b, _ | ⟨b', bs⟩⟩
  · exact .inl rfl
  · rcases as with _ | ⟨a, as⟩
    · cases List.prefix_nil.mp h
    · obtain ⟨rfl, -⟩ := List.cons_prefix_cons.mp h
      exact .inr (.inl ⟨b, as, rfl, rfl⟩)
  · rcases as with _ | ⟨a, _ | ⟨a', as⟩⟩
    · cases List.prefix_nil.mp h
    · cases List.prefix_nil.mp (List.cons_prefix_cons.mp h).2
    · obtain ⟨rfl, more⟩ := List.cons_prefix_cons.mp h
      obtain ⟨rfl, -⟩ := List.cons_prefix_cons.mp more
      exact .inr (.inr ⟨b, b', as, bs, rfl, rfl⟩)

namespace Cut

def ending (old : List Char) : Cut := ⟨old, [], .inl rfl⟩

theorem continues (cut : Cut) : Continues cut.old cut.new := by
  intro e head
  rcases cut.fits with nothing | ⟨f, g, -, ⟨old, before⟩, new, after⟩
  · rw [nothing] at head
    cases head
  · rw [← after] at head
    rw [← before]
    exact head

theorem front (cut : Cut) (as : List Char) : (as ++ cut.new).take 2 <+: (as ++ cut.old).take 2 := by
  rcases cut.fits with nothing | ⟨f, g, -, ⟨old, before⟩, new, after⟩
  · rw [nothing, List.append_nil, List.take_append]
    exact List.prefix_append _ _
  · rw [← before, ← after]
    rcases as with _ | ⟨a, _ | ⟨b, as⟩⟩ <;> exact List.prefix_refl _

end Cut

namespace Lexeme

variable {p : Char → Bool}

theorem avoidsDropWhile (p : Char → Bool) (cs : List Char) : Avoids p (cs.dropWhile p) := by
  intro e head
  have first := List.head?_dropWhile_not p cs
  rw [head] at first
  simpa using first

end Lexeme

theorem Continues.avoids {old new mid : List Char} {p : Char → Bool} (h : Continues old new)
    (stop : Lexeme.Avoids p (mid ++ old)) : Lexeme.Avoids p (mid ++ new) := by
  cases mid with
  | nil => exact fun e head => stop e (h e head)
  | cons f mid => exact stop

namespace Trivia

theorem splitBlockAgain {cs text rest : List Char} (h : splitBlock cs = some (text, rest)) (tail : List Char) :
    splitBlock (text ++ '*' :: '/' :: tail) = some (text, tail) := by
  fun_induction splitBlock cs generalizing text rest with
  | case1 => cases h
  | case2 =>
      cases h
      rfl
  | case3 c cs other ih =>
      simp only [Option.map_eq_some_iff, Prod.mk.injEq, Prod.exists] at h
      obtain ⟨more, _, found, rfl, rfl⟩ := h
      have again := ih found
      have apart : ∀ es, c = '*' → more ++ '*' :: '/' :: tail = '/' :: es → False := by
        intro es star same
        have splits := splitBlockSplits found
        cases more with
        | nil => cases same
        | cons e es' =>
            obtain ⟨rfl, -⟩ := List.cons.inj same
            exact other _ star splits
      rw [List.cons_append, splitBlock.eq_3 c _ apart, again]
      rfl

theorem splitPieceBlank {c : Char} (blank : isBlank c = true) (cs : List Char) :
    splitPiece (c :: cs) = some (.blank c, cs) := by
  have other : c ≠ '/' := by
    intro same
    rw [same] at blank
    cases blank
  rw [splitPiece.eq_3 c cs (fun _ same _ => other same) (fun _ same _ => other same), if_pos blank]

theorem splitBlanks {blanks back : List Char} (all : ∀ e ∈ blanks, isBlank e = true) :
    (split (blanks ++ back)).2 = (split back).2 := by
  induction blanks with
  | nil => rfl
  | cons e blanks ih =>
      obtain ⟨blank, rest⟩ := List.forall_mem_cons.mp all
      rw [List.cons_append, splitMore (splitPieceBlank blank _)]
      exact ih rest

theorem splitPieceFront {as bs : List Char} (front : bs.take 2 <+: as.take 2) (closed : opensComment as = false)
    (h : splitPiece as = none) : splitPiece bs = none := by
  have solid : ∀ {a cs}, splitPiece (a :: cs) = none → isBlank a = false := by
    intro a cs none
    refine Bool.eq_false_iff.mpr fun blank => ?_
    rw [splitPieceBlank blank] at none
    cases none
  rcases frontCases front with rfl | ⟨a, cs, rfl, rfl⟩ | ⟨a, b, cs, ds, rfl, rfl⟩
  · rfl
  · by_cases slash : a = '/'
    · rw [slash]
      rfl
    · exact Lexeme.splitPieceNone (solid h) slash
  · by_cases slash : a = '/'
    · subst slash
      refine Lexeme.splitPieceSlash (Lexeme.avoidsCons ?_)
      rw [Bool.or_eq_false_iff, beq_eq_false_iff_ne, beq_eq_false_iff_ne]
      constructor
      · rintro rfl
        cases h
      · rintro rfl
        cases closed
    · exact Lexeme.splitPieceNone (solid h) slash

variable {cs as mid old new : List Char}

theorem splitPieceAgain {p : Piece} (keeps : Lexeme.Avoids (!endsLine ·) old → Lexeme.Avoids (!endsLine ·) new)
    (h : splitPiece cs = some (p, mid ++ old)) : splitPiece (p.raw ++ (mid ++ new)) = some (p, mid ++ new) := by
  have ends : Lexeme.Avoids (!endsLine ·) (mid ++ old) → Lexeme.Avoids (!endsLine ·) (mid ++ new) := by
    cases mid with
    | nil => exact keeps
    | cons => exact id
  unfold splitPiece at h
  split at h
  · rename_i cs
    obtain ⟨rfl, behind⟩ := Prod.mk.inj (Option.some.inj h)
    have stop := Lexeme.avoidsDropWhile (!endsLine ·) cs
    rw [behind] at stop
    have all := Lexeme.ofTakeWhile (!endsLine ·) cs
    simp only [Piece.raw, List.cons_append, splitPiece, Lexeme.takeWhileThen all (ends stop),
      Lexeme.dropWhileThen all (ends stop)]
  · simp only [Option.map_eq_some_iff, Prod.mk.injEq, Prod.exists] at h
    obtain ⟨text, _, found, rfl, -⟩ := h
    have again := splitBlockAgain found (mid ++ new)
    simp only [Piece.raw, List.cons_append, List.append_assoc, List.nil_append, splitPiece, again, Option.map_some]
  · split at h
    · rename_i blank
      cases h
      exact splitPieceBlank blank (mid ++ new)
    · cases h
  · cases h

theorem splitAgain (keeps : Lexeme.Avoids (!endsLine ·) old → Lexeme.Avoids (!endsLine ·) new)
    (stop : splitPiece (mid ++ new) = none) (whole : cs = as ++ old) (h : (split cs).2 = mid ++ old) :
    split (as ++ new) = ((split cs).1, mid ++ new) := by
  fun_induction split cs generalizing as with
  | case1 cs =>
      rw [whole] at h
      rw [List.append_cancel_right h, splitStop stop]
  | case2 cs p rest found ih =>
      have splits := splitSplits rest
      rw [show (split rest).2 = mid ++ old from h, ← List.append_assoc] at splits
      rw [splitPieceSplits found, splits, ← List.append_assoc, List.append_cancel_right_eq] at whole
      have again := splitPieceAgain keeps (splits ▸ found)
      rw [← whole, List.append_assoc, splitMore again, ih splits h]

end Trivia

namespace Lexeme

variable {m : Mode} {cs mid old new : List Char} {l : Lexeme}

section Numbers

theorem splitFractionRest (h : Avoids isDecimalPart cs) : Avoids isDecimalPart (splitFraction cs).2 ∧
    ((splitFraction cs).1.all isDecimalPart = true → (splitFraction cs).2 = cs ∧ Avoids (· == '.') cs) := by
  unfold splitFraction
  split
  · exact ⟨avoidsDropWhile _ _, fun decimal => by simp [isDecimalPart] at decimal⟩
  · rename_i other
    refine ⟨h, fun _ => ⟨rfl, fun e head => ?_⟩⟩
    obtain ⟨es, rfl⟩ := List.head?_eq_some_iff.mp head
    exact beq_eq_false_iff_ne.mpr fun same => other es (by rw [same])

theorem splitExponentRest (h : Avoids isDecimalPart cs) : Avoids isDecimalPart (splitExponent cs).2 ∧
    ((splitExponent cs).1.all isDecimalPart = true → (splitExponent cs).2 = cs) := by
  have marked := @exponentMark cs
  cases cs with
  | nil => exact ⟨h, fun _ => rfl⟩
  | cons e cs =>
      simp only [splitExponent] at marked ⊢
      split
      · rename_i exponent
        rw [if_pos exponent] at marked
        refine ⟨avoidsDropWhile _ _, fun decimal => ?_⟩
        have mark := marked e rfl
        have first : isDecimalPart e = false := by
          cases mark with
          | inl same => rw [same]; decide
          | inr same => rw [same]; decide
        simp [first] at decimal
      · exact ⟨h, fun _ => rfl⟩

theorem splitNumberRest (cs : List Char) : Avoids isDecimalPart (splitNumber cs).2 ∧
    ((splitNumber cs).1.all isDecimalPart = true → Avoids (· == '.') (splitNumber cs).2) := by
  have decimal : ∀ cs, Avoids isDecimalPart (splitDecimal cs).2 ∧
      ((splitDecimal cs).1.all isDecimalPart = true → Avoids (· == '.') (splitDecimal cs).2) := by
    intro cs
    have fraction := splitFractionRest (avoidsDropWhile isDecimalPart cs)
    have exponent := splitExponentRest fraction.1
    refine ⟨exponent.1, fun all => ?_⟩
    simp only [splitDecimal, List.all_append, Bool.and_eq_true] at all ⊢
    obtain ⟨kept, point⟩ := fraction.2 all.1.2
    rw [exponent.2 all.2, kept]
    exact point
  unfold splitNumber
  split
  · rename_i mark es
    split
    · rename_i radix
      have part : isDecimalPart mark = false := by
        simp only [isRadixMark, Bool.or_eq_true, beq_iff_eq] at radix
        obtain ((((rfl | rfl) | rfl) | rfl) | rfl) | rfl := radix <;> decide
      refine ⟨(avoidsDropWhile _ es).weaken fun e other => ?_, fun all => ?_⟩
      · simp only [isHexDigit, isDecimalPart, Bool.or_eq_false_iff] at other ⊢
        exact ⟨other.1.1.1, other.2⟩
      · simp [part] at all
    · exact decimal _
  · exact decimal _

end Numbers

theorem opensCommentFront {as bs : List Char} (front : bs.take 2 <+: as.take 2) (h : Trivia.opensComment as = false) :
    Trivia.opensComment bs = false := by
  unfold Trivia.opensComment at h ⊢
  rcases frontCases front with rfl | ⟨a, cs, rfl, rfl⟩ | ⟨a, b, cs, ds, rfl, rfl⟩
  · rfl
  · split
    · rename_i same
      cases same
    · rfl
  · split
    · rename_i same
      cases same
      cases h
    · rfl

theorem startsNumberFront {as bs : List Char} (front : bs.take 2 <+: as.take 2) (h : startsNumber as = false) :
    startsNumber bs = false := by
  have pointless : ∀ {a cs}, startsNumber (a :: cs) = false → a.isDigit = false := by
    intro a cs none
    by_cases point : a = '.'
    · subst point
      decide
    · simpa [startsNumber, point] using none
  rcases frontCases front with rfl | ⟨a, cs, rfl, rfl⟩ | ⟨a, b, cs, ds, rfl, rfl⟩
  · rfl
  · simpa [startsNumber] using pointless h
  · by_cases point : a = '.'
    · subst point
      exact h
    · simpa [startsNumber, point] using pointless h

section Punctuators

variable {as : List Char} {o : String}

theorem punctuatorBound : ∀ p ∈ punctuators m, p.toList.length ≤ 3 ∨ p = ">>>=" := by
  cases m <;> decide

theorem punctuatorFits (cut : Cut) (known : o ∈ punctuators m) (nonempty : as ≠ []) (fits : o.toList <+: as ++ cut.new) :
    o.toList <+: as ++ cut.old := by
  rcases cut.fits with nothing | ⟨f, g, other, before, after⟩
  · rw [nothing, List.append_nil] at fits
    exact fits.trans (List.prefix_append _ _)
  · obtain ⟨t, after⟩ := after
    rw [← after, ← List.append_assoc] at fits
    by_cases short : o.toList.length ≤ (as ++ [f, g]).length
    · have both := List.prefix_of_prefix_length_le fits (List.prefix_append (as ++ [f, g]) t) short
      exact both.trans ((List.prefix_append_right_inj as).mpr before)
    · obtain ⟨a, as, rfl⟩ := List.exists_cons_of_ne_nil nonempty
      rcases punctuatorBound o known with three | rfl
      · simp only [List.length_append, List.length_cons, List.length_nil] at short
        omega
      · have text : ">>>=".toList = ['>', '>', '>', '='] := by decide
        rw [text] at fits short
        obtain ⟨rfl, behind⟩ := List.cons_prefix_cons.mp fits
        cases as with
        | nil =>
            obtain ⟨rfl, -⟩ := List.cons_prefix_cons.mp behind
            exact absurd rfl other
        | cons =>
            simp only [List.length_append, List.length_cons, List.length_nil] at short
            omega

end Punctuators

end Lexeme

/-- What goes on in two ways, so that no token in front of it can tell the one from the other. -/
structure Swap (old new : List Char) : Prop where
  avoids : ∀ {p mid}, (∀ e, Trivia.isBlank e = true → p e = false) → Lexeme.Avoids p (mid ++ old) →
    Lexeme.Avoids p (mid ++ new)
  closed : ∀ {as}, as ≠ [] → Trivia.opensComment (as ++ old) = false → Trivia.opensComment (as ++ new) = false
  solid : ∀ {as}, as ≠ [] → Trivia.opensComment (as ++ old) = false → Trivia.splitPiece (as ++ old) = none →
    Trivia.splitPiece (as ++ new) = none
  numberless : ∀ {as}, as ≠ [] → Lexeme.startsNumber (as ++ old) = false → Lexeme.startsNumber (as ++ new) = false
  fits : ∀ {m o as}, o ∈ Lexeme.punctuators m → as ≠ [] → o.toList <+: as ++ new → o.toList <+: as ++ old

theorem Cut.swap (cut : Cut) : Swap cut.old cut.new where
  avoids _ stop := cut.continues.avoids stop
  closed _ closed := Lexeme.opensCommentFront (cut.front _) closed
  solid _ closed solid := Trivia.splitPieceFront (cut.front _) closed solid
  numberless _ none := Lexeme.startsNumberFront (cut.front _) none
  fits known nonempty fits := Lexeme.punctuatorFits cut known nonempty fits

namespace Lexeme

variable {m : Mode} {cs mid old new : List Char} {l : Lexeme}

theorem blankWordless {e : Char} (blank : Trivia.isBlank e = true) : isWordPart m e = false := by
  have other : e ≠ '-' := by
    rintro rfl
    cases blank
  simp [isWordPart, blankPart blank, other]

theorem blankNumberless {e : Char} (blank : Trivia.isBlank e = true) : runsOnNumber e = false :=
  Bool.eq_false_iff.mpr fun runs => by
    have part := numberRuns runs
    rw [blankPart blank] at part
    cases part

theorem blankPointless {e : Char} (blank : Trivia.isBlank e = true) : (e == '.') = false := by
  rw [beq_eq_false_iff_ne]
  rintro rfl
  cases blank

theorem numberSwap (swap : Swap old new) (starts : startsNumber cs = true)
    (valid : (number cs).kind.isInvalid = false) (h : (number cs).rest = mid ++ old) :
    number ((number cs).raw ++ (mid ++ new)) = ⟨(number cs).kind, (number cs).raw, mid ++ new⟩ ∧
      startsNumber ((number cs).raw ++ (mid ++ new)) = true := by
  have rest := splitNumberRest cs
  have same : (number cs).raw = (splitNumber cs).1 ∧ (number cs).rest = (splitNumber cs).2 ∧
      (splitNumber cs).2.head?.any isIdentifierStart = false := by
    simp only [number] at valid ⊢
    split at valid
    · cases valid
    · rename_i free
      rw [if_neg free]
      exact ⟨rfl, rfl, by simpa using free⟩
  rw [← same.1, ← same.2.1, h] at rest
  have stop : Avoids runsOnNumber (mid ++ old) := by
    intro e head
    have start := same.2.2
    rw [← same.2.1, h, head] at start
    have digit := rest.1 e head
    simp only [isDecimalPart, Bool.or_eq_false_iff] at digit
    rw [runsOnNumber, digit.1, Bool.or_false]
    exact start
  exact numberAgain starts valid (swap.avoids (fun _ => blankNumberless) stop) fun decimal =>
    swap.avoids (fun _ => blankPointless) (rest.2 decimal)

theorem wordSwap (swap : Swap old new) {f : Char} {es : List Char} (h : (word m f es).rest = mid ++ old) :
    word m f (es.takeWhile (isWordPart m) ++ (mid ++ new)) = ⟨(word m f es).kind, (word m f es).raw, mid ++ new⟩ := by
  have stop := avoidsDropWhile (isWordPart m) es
  rw [show es.dropWhile (isWordPart m) = mid ++ old from h] at stop
  exact wordAgain (swap.avoids (fun _ => blankWordless) stop)

theorem punctuatorStays (swap : Swap old new) {as : List Char} {o : String} (nonempty : as ≠ [])
    (found : punctuator? m (as ++ old) = some o) (front : o.toList <+: as) : punctuator? m (as ++ new) = some o := by
  unfold punctuator? at found ⊢
  obtain ⟨-, before, after, whole, earlier⟩ := List.find?_eq_some_iff_append.mp found
  have fits := List.isPrefixOf_iff_prefix.mpr (front.trans (List.prefix_append as new))
  apply List.find?_eq_some_iff_append.mpr
  refine ⟨fits, before, after, whole, fun p inside => ?_⟩
  have known : p ∈ punctuators m := by
    rw [whole]
    exact List.mem_append_left _ inside
  have misfit := earlier p inside
  simp only [Bool.not_eq_true', Bool.eq_false_iff, ne_eq, List.isPrefixOf_iff_prefix] at misfit ⊢
  exact fun fits => misfit (swap.fits known nonempty fits)

theorem punctuatorSwap (swap : Swap old new) {f : Char} {es : List Char} (h : punctuator m f (es ++ mid ++ old) = l)
    (valid : l.kind.isInvalid = false) (raw : l.raw = f :: es) :
    punctuator m f (es ++ mid ++ new) = ⟨l.kind, l.raw, mid ++ new⟩ := by
  unfold punctuator at h
  split at h
  · rename_i o found
    rw [← h] at raw
    have text : o.toList = f :: es := raw
    have front : o.toList <+: f :: (es ++ mid) := by
      rw [text]
      exact List.prefix_append _ _
    have again := punctuatorStays swap (List.cons_ne_nil _ _) found front
    rw [List.cons_append] at again
    simp only [punctuator, again, ← h, text]
    simp
  · rw [← h] at valid
    cases valid

theorem nextClosed (h : next? m cs = some l) (valid : l.kind.isInvalid = false) : Trivia.opensComment cs = false := by
  cases cs with
  | nil => cases h
  | cons c cs =>
      refine Bool.eq_false_iff.mpr fun opens => ?_
      simp only [next?, opens, if_true, Option.some.injEq] at h
      rw [← h] at valid
      cases valid

theorem nextSwap (swap : Swap old new) {as : List Char} (h : next? m (as ++ old) = some l)
    (valid : l.kind.isInvalid = false) (rest : l.rest = mid ++ old) :
    as ≠ [] ∧ next? m (as ++ new) = some ⟨l.kind, l.raw, mid ++ new⟩ := by
  have cuts := nextCuts h
  have split := cuts.splits
  rw [rest, ← List.append_assoc, List.append_cancel_right_eq] at split
  obtain ⟨f, es, raw⟩ := List.exists_cons_of_ne_nil cuts.nonempty
  rw [raw, List.cons_append] at split
  have nonempty : as ≠ [] := by
    rw [split]
    exact List.cons_ne_nil _ _
  refine ⟨nonempty, ?_⟩
  have closed := swap.closed nonempty
  have numberless := swap.numberless nonempty
  rw [split, List.cons_append] at h closed numberless ⊢
  rw [List.cons_append] at closed numberless
  -- Every test of `next?` comes out as before, and the branch it leads to takes the same characters.
  simp only [next?, Option.some.injEq] at h ⊢
  split at h
  · rw [← h] at valid
    cases valid
  · rename_i comment
    rw [if_neg (by rw [closed (Bool.eq_false_iff.mpr comment)]; exact Bool.false_ne_true)]
    split at h
    · rename_i start
      rw [if_pos start, ← h]
      rw [← h] at raw rest
      have again := wordSwap swap rest
      rw [(List.cons.inj raw).2] at again
      rwa [List.append_assoc]
    · rename_i start
      rw [if_neg start]
      split at h
      · rename_i starts
        rw [Bool.and_eq_true] at starts
        rw [← h] at valid rest raw
        have again := numberSwap swap starts.2 valid rest
        rw [raw, List.cons_append, ← List.append_assoc] at again
        rw [starts.1, again.2, if_pos (by rfl), again.1, ← h, raw]
      · rename_i starts
        have nowhere : (m == .script && startsNumber (f :: (es ++ mid ++ new))) = false := by
          rw [Bool.not_eq_true, Bool.and_eq_false_imp] at starts
          rw [Bool.and_eq_false_imp]
          exact fun script => numberless (starts script)
        rw [if_neg (by rw [nowhere]; exact Bool.false_ne_true)]
        split at h
        · rename_i quote
          rw [if_pos quote]
          rw [← h] at valid raw
          obtain ⟨body, same, again⟩ := @quotedAgain m _ (mid ++ new) f quote valid
          rw [same] at raw
          rw [List.append_assoc, ← (List.cons.inj raw).2, again, h]
        · rename_i quote
          rw [if_neg quote]
          exact punctuatorSwap swap h valid raw

end Lexeme

namespace Cursor

variable {m : Mode} {k : Token.Kind} {a b c c' : Cursor} {cut : Cut} {as mid old new : List Char}

def Clipped (cut : Cut) (c b : Cursor) : Prop := ∃ mid, c.rest = mid ++ cut.old ∧ b.rest = mid ++ cut.new

def Before (cut : Cut) (c : Cursor) : Prop := cut.old <:+ c.rest

theorem Reaches.before (h : a.Reaches b) (later : b.Before cut) : a.Before cut := by
  obtain ⟨raw, rest, -⟩ := h
  rw [Before, rest]
  exact later.trans (List.suffix_append raw b.rest)

theorem clippedAlike {mid : List Char} (clipped : c.Clipped cut b) (here : c.rest = mid ++ cut.old) :
    b.rest = mid ++ cut.new := by
  obtain ⟨mid', front, behind⟩ := clipped
  rw [behind, List.append_cancel_right (front.symm.trans here)]

theorem skipSwap (swap : Swap old new) (front : c.rest = as ++ old) (behind : b.rest = as ++ new)
    (closed : Trivia.opensComment c.skip.rest = false) (reached : c.skip.rest = mid ++ old) (nonempty : mid ≠ []) :
    b.skip.rest = mid ++ new := by
  have stop := Trivia.splitMaximal c.rest
  rw [show (Trivia.split c.rest).2 = mid ++ old from reached] at stop
  rw [reached] at closed
  obtain ⟨e, es, rfl⟩ := List.exists_cons_of_ne_nil nonempty
  obtain ⟨raw, through, -⟩ := c.reachesSkip
  rw [reached, front, ← List.append_assoc, List.append_cancel_right_eq] at through
  have keeps : Lexeme.Avoids (!Trivia.endsLine ·) (e :: es ++ old) →
      Lexeme.Avoids (!Trivia.endsLine ·) (e :: es ++ new) := id
  have whole : c.rest = raw ++ (e :: es ++ old) := by rw [front, through, List.append_assoc]
  have again := @Trivia.splitAgain _ _ [] _ _ keeps (swap.solid nonempty closed stop) whole reached
  rw [← List.append_assoc, ← through, ← behind] at again
  simp only [skip, again, List.nil_append]

theorem nextSwap (swap : Swap old new) (front : c.rest = as ++ old) (behind : b.rest = as ++ new)
    (next : c.next? m = some (k, c')) (valid : k.isInvalid = false) (rest : c'.rest = mid ++ old) :
    ∃ b', b.next? m = some (k, b') ∧ b'.rest = mid ++ new := by
  obtain ⟨raw, through, -⟩ := skipReaches next
  simp only [next?, Option.map_eq_some_iff, Prod.mk.injEq] at next
  obtain ⟨l, found, rfl, rfl⟩ := next
  have reached : c.skip.rest = raw ++ mid ++ old := by rw [through, rest, List.append_assoc]
  have closed := Lexeme.nextClosed found valid
  rw [reached] at found
  obtain ⟨nonempty, again⟩ := Lexeme.nextSwap swap found valid rest
  rw [← skipSwap swap front behind closed reached nonempty] at again
  exact ⟨⟨b.skip.place.past l.raw, mid ++ new⟩, by simp only [next?, again, Option.map_some], rfl⟩

theorem nextClipped (clipped : c.Clipped cut b) (next : c.next? m = some (k, c')) (valid : k.isInvalid = false)
    (later : c'.Before cut) : ∃ b', b.next? m = some (k, b') ∧ c'.Clipped cut b' := by
  obtain ⟨as, front, behind⟩ := clipped
  obtain ⟨mid, rest⟩ := later
  obtain ⟨b', again, rest'⟩ := nextSwap cut.swap front behind next valid rest.symm
  exact ⟨b', again, mid, rest.symm, rest'⟩

theorem textClipped {raw : String} (clipped : c.Clipped cut b) (run : c.text? = some (raw, c'))
    (later : c'.Before cut) : ∃ b', b.text? = some (raw, b') ∧ c'.Clipped cut b' := by
  obtain ⟨mid, rest⟩ := later
  obtain ⟨⟨splits, -⟩, nonempty⟩ := textTraces run
  have stop := Lexeme.avoidsDropWhile (!Lexeme.endsText ·) c.rest
  rw [← (textCut run).2, ← rest] at stop
  rw [← rest, ← List.append_assoc] at splits
  have front := clippedAlike clipped splits
  rw [List.append_assoc] at front
  obtain ⟨b', again, behind⟩ := textAt nonempty (textPlain run) (cut.continues.avoids stop) front
  exact ⟨b', again, mid, rest.symm, behind⟩

theorem textlessIff : c.text? = none ↔ Lexeme.Avoids (!Lexeme.endsText ·) c.rest := by
  rw [textNone]
  cases c.rest <;> simp [Lexeme.Avoids, List.takeWhile_cons]

theorem textlessClipped (clipped : c.Clipped cut b) (textless : c.text? = none) : b.text? = none := by
  obtain ⟨mid, front, behind⟩ := clipped
  rw [textlessIff] at textless ⊢
  rw [front] at textless
  rw [behind]
  exact cut.continues.avoids textless

theorem skipSame (same : b.rest = c.rest) : b.skip.rest = c.skip.rest := by simp only [skip, same]

theorem nextSame (same : b.skip.rest = c.skip.rest) (next : c.next? m = some (k, c')) :
    ∃ b', b.next? m = some (k, b') ∧ b'.rest = c'.rest := by
  simp only [next?, Option.map_eq_some_iff, Prod.mk.injEq] at next
  obtain ⟨l, found, rfl, rfl⟩ := next
  exact ⟨⟨b.skip.place.past l.raw, l.rest⟩, by simp only [next?, same, found, Option.map_some], rfl⟩

theorem nextNothing (nothing : c.rest = []) : c.next? m = none := by
  rw [nextNone, skip, nothing, Trivia.splitStop rfl]

theorem clippedEnd (clipped : c.Clipped cut b) (nothing : cut.new = []) (ends : c.rest = cut.old) : b.next? m = none := by
  have behind := @clippedAlike _ _ _ [] clipped ends
  exact nextNothing (by rw [behind, nothing, List.append_nil])

end Cursor

end JsxTree
