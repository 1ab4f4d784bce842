import JsxTree.Proofs.Lexing

/-! Tokens in other surroundings. The token that is read at the front of one text is read in front of
any other text too, as long as that text does not run on from the token. -/
namespace JsxTree

def Token.Kind.isWord : Token.Kind → Bool
  | identifier _ | jsxIdentifier _ | boolean _ | null => true
  | _ => false

theorem Text.every {P : Char → Prop} [DecidablePred P] {cs : List Char} (h : cs.all (fun c => decide (P c)) = true) :
    ∀ c ∈ cs, P c := fun c inside => of_decide_eq_true (List.all_eq_true.mp h c inside)

namespace Lexeme

variable {m : Mode} {cs tail : List Char} {l : Lexeme} {k : Token.Kind} {p : Char → Bool}

section Characters

def Avoids (p : Char → Bool) (cs : List Char) : Prop := ∀ e, cs.head? = some e → p e = false

theorem avoidsNil : Avoids p [] := fun _ h => by cases h

theorem avoidsCons {e : Char} (h : p e = false) : Avoids p (e :: cs) := by
  intro e' same
  cases same
  exact h

theorem Avoids.weaken {q : Char → Bool} (h : Avoids p cs) (weaker : ∀ e, p e = false → q e = false) : Avoids q cs :=
  fun e head => weaker e (h e head)

theorem avoidsAppend {as : List Char} (first : Avoids p as) (second : Avoids p tail) : Avoids p (as ++ tail) := by
  cases as with
  | nil => exact second
  | cons e es => exact avoidsCons (first e rfl)

theorem takeWhileThen {as : List Char} (all : ∀ e ∈ as, p e = true) (stop : Avoids p tail) :
    (as ++ tail).takeWhile p = as := by
  rw [List.takeWhile_append_of_pos all]
  cases tail with
  | nil => simp
  | cons e es => simp [stop e rfl]

theorem dropWhileThen {as : List Char} (all : ∀ e ∈ as, p e = true) (stop : Avoids p tail) :
    (as ++ tail).dropWhile p = tail := by
  rw [List.dropWhile_append_of_pos all]
  cases tail with
  | nil => simp
  | cons e es => simp [stop e rfl]

theorem ofTakeWhile (p : Char → Bool) (cs : List Char) : ∀ e ∈ cs.takeWhile p, p e = true :=
  fun _ inside => List.all_eq_true.mp List.all_takeWhile _ inside

def blankCodes : List Nat := [9, 10, 11, 12, 13, 0x20, 0x85, 0xA0, 0x1680, 0x2000, 0x2001, 0x2002, 0x2003, 0x2004, 0x2005,
  0x2006, 0x2007, 0x2008, 0x2009, 0x200A, 0x2028, 0x2029, 0x202F, 0x205F, 0x3000, 0xFEFF]

theorem blankCode {c : Char} (h : Trivia.isBlank c = true) : c.toNat ∈ blankCodes := by
  simp only [Trivia.isBlank, Text.isWhiteSpace, Text.whiteSpaceRanges, List.any_cons, List.any_nil, Bool.or_false,
    Bool.or_eq_true, Text.CodeRange.holdsIff, beq_iff_eq] at h
  obtain ranges | rfl := h
  · simp only [blankCodes, List.mem_cons, List.not_mem_nil, or_false]
    omega
  · decide

theorem blankPart {c : Char} (h : Trivia.isBlank c = true) : isIdentifierPart c = false := by
  have all : ∀ n ∈ blankCodes, isIdentifierPart (Char.ofNat n) = false := by decide +kernel
  have part := all _ (blankCode h)
  rwa [Char.ofNat_toNat] at part

theorem startPart {c : Char} (h : isIdentifierStart c = true) : isIdentifierPart c = true := by
  simp [isIdentifierPart, h]

theorem startUnblank {c : Char} (h : isIdentifierStart c = true) : Trivia.isBlank c = false := by
  refine Bool.eq_false_iff.mpr fun blank => ?_
  have part := blankPart blank
  rw [startPart h] at part
  cases part

theorem startOther {c : Char} (h : isIdentifierStart c = true) :
    ∀ e ∈ "/.\"'0123456789 ()[]<>\x7b\x7d,=!-+~:".toList, c ≠ e := by
  have none : ∀ e ∈ "/.\"'0123456789 ()[]<>\x7b\x7d,=!-+~:".toList, isIdentifierStart e = false :=
    Text.every (by decide)
  intro e known same
  rw [same, none e known] at h
  cases h

theorem partOther : ∀ e ∈ "/.\"' ()[]<>\x7b\x7d,=!+~:*".toList, isIdentifierPart e = false := Text.every (by decide)

theorem unstarted (e : Char) (known : e ∈ "/.\"' ()[]<>\x7b\x7d,=!+~:*".toList) : isIdentifierStart e = false :=
  Bool.eq_false_iff.mpr fun start => by
    have part := startPart start
    rw [partOther e known] at part
    cases part

theorem wordPartOther (m : Mode) : ∀ e ∈ "/.\"' ()[]<>\x7b\x7d,=!+~:*".toList, isWordPart m e = false := by
  intro e known
  have dash : e ≠ '-' := fun same => absurd (same ▸ known) (by decide)
  simp [isWordPart, partOther e known, dash]

end Characters

section Words

theorem opensCommentSlash {f : Char} {es : List Char} (other : f ≠ '/') : Trivia.opensComment (f :: es) = false := by
  unfold Trivia.opensComment
  split
  · rename_i same
    simp only [List.cons.injEq] at same
    exact absurd same.1 other
  · rfl

theorem nextWord {f : Char} {es : List Char} (start : isIdentifierStart f = true) :
    next? m (f :: es) = some (word m f es) := by
  have comment := @opensCommentSlash f es (startOther start '/' (by decide))
  simp only [next?, comment, start]
  rfl

theorem nextCases (h : next? m cs = some l) : l.kind.isInvalid = true ∨
    (∃ f es, cs = f :: es ∧ isIdentifierStart f = true ∧ l = word m f es) ∨
    (m = .script ∧ startsNumber cs = true ∧ l = number cs) ∨
    (∃ q es, cs = q :: es ∧ (q == '"' || q == '\'') = true ∧ l = quoted m q es) ∨
    (∃ f es, cs = f :: es ∧ l = punctuator m f es) := by
  cases cs with
  | nil => cases h
  | cons f es =>
      simp only [next?, Option.some.injEq] at h
      subst h
      split
      · exact .inl rfl
      · split
        · rename_i start
          exact .inr (.inl ⟨f, es, rfl, start, rfl⟩)
        · split
          · rename_i number
            rw [Bool.and_eq_true, beq_iff_eq] at number
            exact .inr (.inr (.inl ⟨number.1, number.2, rfl⟩))
          · split
            · rename_i quote
              exact .inr (.inr (.inr (.inl ⟨f, es, rfl, quote, rfl⟩)))
            · exact .inr (.inr (.inr (.inr ⟨f, es, rfl, rfl⟩)))

theorem wordIsWord (mode : Mode) (raw : String) : (wordKind mode raw).isWord = true := by
  unfold wordKind
  repeat' split
  all_goals rfl

theorem numberKind (cs : List Char) :
    (number cs).kind.isInvalid = true ∨ (number cs).kind = .numericLiteral (String.ofList (number cs).raw) := by
  simp only [number]
  split
  · exact .inl rfl
  · exact .inr rfl

theorem quotedKind (mode : Mode) (quote : Char) (cs : List Char) : (quoted mode quote cs).kind.isInvalid = true ∨
    (quoted mode quote cs).kind = .stringLiteral (String.ofList (quoted mode quote cs).raw) := by
  unfold quoted
  dsimp only
  split
  all_goals
    split
    · exact .inr rfl
    · exact .inl rfl

theorem punctuatorKind (mode : Mode) (f : Char) (cs : List Char) : (punctuator mode f cs).kind.isInvalid = true ∨
    ∃ o ∈ punctuators mode, punctuator mode f cs = ⟨.punctuator o, o.toList, (f :: cs).drop o.toList.length⟩ := by
  unfold punctuator
  split
  · rename_i o found
    exact .inr ⟨o, (punctuatorFound found).1, rfl⟩
  · exact .inl rfl

theorem punctuatorOf {o : String} (h : next? m cs = some l) (kind : l.kind = .punctuator o) :
    punctuator? m cs = some o := by
  obtain bad | ⟨f, es, -, -, rfl⟩ | ⟨-, -, rfl⟩ | ⟨q, es, -, -, rfl⟩ | ⟨f, es, rfl, rfl⟩ := nextCases h
  · rw [kind] at bad
    cases bad
  · have isWord := wordIsWord m (String.ofList (word m f es).raw)
    rw [show wordKind m (String.ofList (word m f es).raw) = _ from kind] at isWord
    cases isWord
  · obtain bad | same := numberKind cs
    · rw [kind] at bad
      cases bad
    · rw [kind] at same
      cases same
  · obtain bad | same := quotedKind m q es
    · rw [kind] at bad
      cases bad
    · rw [kind] at same
      cases same
  · unfold punctuator at kind
    split at kind
    · rename_i o' found
      cases kind
      exact found
    · cases kind

theorem wordOf (h : next? m cs = some l) (word? : l.kind.isWord = true) :
    ∃ f es, cs = f :: es ∧ isIdentifierStart f = true ∧ l = word m f es := by
  have invalid : ∀ {k : Token.Kind}, k.isInvalid = true → k.isWord = true → False := by
    intro k; cases k <;> simp [Token.Kind.isInvalid, Token.Kind.isWord]
  obtain bad | found | ⟨-, -, rfl⟩ | ⟨q, es, -, -, rfl⟩ | ⟨f, es, -, rfl⟩ := nextCases h
  · exact (invalid bad word?).elim
  · exact found
  · obtain bad | kind := numberKind cs
    · exact (invalid bad word?).elim
    · rw [kind] at word?; cases word?
  · obtain bad | kind := quotedKind m q es
    · exact (invalid bad word?).elim
    · rw [kind] at word?; cases word?
  · obtain bad | ⟨o, -, same⟩ := punctuatorKind m f es
    · exact (invalid bad word?).elim
    · rw [same] at word?; cases word?

theorem wordAgain {f : Char} {es : List Char} (stop : Avoids (isWordPart m) tail) :
    word m f (es.takeWhile (isWordPart m) ++ tail) = ⟨(word m f es).kind, (word m f es).raw, tail⟩ := by
  have all := ofTakeWhile (isWordPart m) es
  simp only [word, takeWhileThen all stop, dropWhileThen all stop]

end Words

section Numbers

theorem digitDecimal {c : Char} (h : c.isDigit = true) : isDecimalPart c = true := by simp [isDecimalPart, h]

theorem digitNumeric {c : Char} (h : c.isDigit = true) : Text.isNumeric c = true := by
  have bounds : c.toNat < 128 := by
    simp only [Char.isDigit, Bool.and_eq_true, decide_eq_true_eq] at h
    have upper : c.toNat ≤ 57 := h.2
    omega
  simp [Text.isNumeric, bounds, h]

theorem decimalPart {c : Char} (h : isDecimalPart c = true) : isIdentifierPart c = true := by
  simp only [isDecimalPart, Bool.or_eq_true, beq_iff_eq] at h
  obtain digit | rfl := h
  · simp [isIdentifierPart, digitNumeric digit]
  · decide

def runsOnNumber (c : Char) : Bool := isIdentifierStart c || c.isDigit

theorem decimalRuns {c : Char} (h : isDecimalPart c = true) : runsOnNumber c = true := by
  simp only [isDecimalPart, Bool.or_eq_true, beq_iff_eq] at h
  obtain digit | rfl := h
  · simp [runsOnNumber, digit]
  · decide

theorem avoidsDecimal (stop : Avoids runsOnNumber tail) : Avoids isDecimalPart tail :=
  stop.weaken fun e other => Bool.eq_false_iff.mpr fun part => by rw [decimalRuns part] at other; cases other

theorem hexRuns {c : Char} (h : (isHexDigit c || c == '_') = true) : runsOnNumber c = true := by
  have letter : c.isAlpha = true → runsOnNumber c = true := by
    intro alpha
    have bounds : c.toNat < 128 := by
      simp only [Char.isAlpha, Char.isUpper, Char.isLower, Bool.or_eq_true, Bool.and_eq_true, decide_eq_true_eq] at alpha
      have upper : c.toNat ≤ 90 ∨ c.toNat ≤ 122 := alpha.imp (·.2) (·.2)
      omega
    simp [runsOnNumber, isIdentifierStart, Text.isAlphabetic, bounds, alpha]
  simp only [isHexDigit, Bool.or_eq_true, Bool.and_eq_true, decide_eq_true_eq, beq_iff_eq] at h
  obtain ((digit | lower) | upper) | rfl := h
  · exact decimalRuns (digitDecimal digit)
  · refine letter ?_
    have below : c ≤ 'z' := Char.le_trans lower.2 (by decide)
    simp only [Char.isAlpha, Char.isLower, Bool.or_eq_true, Bool.and_eq_true, decide_eq_true_eq]
    exact .inr ⟨lower.1, below⟩
  · refine letter ?_
    have below : c ≤ 'Z' := Char.le_trans upper.2 (by decide)
    simp only [Char.isAlpha, Char.isUpper, Bool.or_eq_true, decide_eq_true_eq]
    exact .inl ⟨upper.1, below⟩
  · decide

theorem radixStart {c : Char} (h : isRadixMark c = true) : isIdentifierStart c = true := by
  simp only [isRadixMark, Bool.or_eq_true, beq_iff_eq] at h
  obtain ((((rfl | rfl) | rfl) | rfl) | rfl) | rfl := h <;> decide

theorem splitFractionAgain {cs fraction rest : List Char} (h : splitFraction cs = (fraction, rest))
    (stop : Avoids isDecimalPart tail) (point : fraction = [] → Avoids (· == '.') tail) :
    splitFraction (fraction ++ tail) = (fraction, tail) := by
  unfold splitFraction at h
  split at h
  · rename_i cs
    obtain ⟨rfl, -⟩ := Prod.mk.inj h
    have all := ofTakeWhile isDecimalPart cs
    simp only [List.cons_append, splitFraction, takeWhileThen all stop, dropWhileThen all stop]
  · obtain ⟨rfl, -⟩ := Prod.mk.inj h
    cases tail with
    | nil => rfl
    | cons e es =>
        have other := point rfl e rfl
        rw [beq_eq_false_iff_ne] at other
        unfold splitFraction
        split
        · rename_i same
          simp only [List.nil_append, List.cons.injEq] at same
          exact absurd same.1 other
        · rfl

theorem splitExponentNone (stop : Avoids runsOnNumber tail) : splitExponent tail = ([], tail) := by
  cases tail with
  | nil => rfl
  | cons e es =>
      have other := stop e rfl
      have mark : (e == 'e' || e == 'E') = false := by
        refine Bool.eq_false_iff.mpr fun same => ?_
        rw [Bool.or_eq_true, beq_iff_eq, beq_iff_eq] at same
        have runs : runsOnNumber e = true := by obtain rfl | rfl := same <;> decide
        rw [runs] at other
        cases other
      simp [splitExponent, mark]

theorem splitSignAgain {cs digits : List Char} {digit : Char} (head : (splitSign cs).2 = digit :: digits)
    (part : isDecimalPart digit = true) :
    splitSign ((splitSign cs).1 ++ ((splitSign cs).2.takeWhile isDecimalPart ++ tail)) =
      ((splitSign cs).1, (splitSign cs).2.takeWhile isDecimalPart ++ tail) := by
  cases cs with
  | nil => simp [splitSign] at head
  | cons s cs =>
      by_cases sign : (s == '+' || s == '-') = true
      · simp [splitSign, sign]
      · simp only [splitSign, sign] at head ⊢
        cases head
        simp [part, sign]

theorem splitExponentAgain {cs exponent rest : List Char} (h : splitExponent cs = (exponent, rest))
    (stop : Avoids runsOnNumber tail) : splitExponent (exponent ++ tail) = (exponent, tail) := by
  cases cs with
  | nil =>
      obtain ⟨rfl, -⟩ := Prod.mk.inj h
      exact splitExponentNone stop
  | cons e cs =>
      simp only [splitExponent] at h
      split at h
      · rename_i marked
        rw [Bool.and_eq_true] at marked
        obtain ⟨rfl, -⟩ := Prod.mk.inj h
        have all := ofTakeWhile isDecimalPart (splitSign cs).2
        obtain ⟨digit, digits, head⟩ : ∃ digit digits, (splitSign cs).2 = digit :: digits := by
          cases text : (splitSign cs).2 with
          | nil => rw [text] at marked; simp at marked
          | cons digit digits => exact ⟨digit, digits, rfl⟩
        have isDigit : digit.isDigit = true := by rw [head] at marked; simpa using marked.2
        have part := digitDecimal isDigit
        have digitFirst : ((splitSign cs).2.takeWhile isDecimalPart ++ tail).head?.any Char.isDigit = true := by
          rw [head]
          simp [part, isDigit]
        simp only [List.cons_append, List.append_assoc, splitExponent, splitSignAgain head part, marked.1, digitFirst,
          Bool.and_self, if_true, takeWhileThen all (avoidsDecimal stop), dropWhileThen all (avoidsDecimal stop)]
      · obtain ⟨rfl, -⟩ := Prod.mk.inj h
        exact splitExponentNone stop

theorem exponentMark {cs : List Char} : ∀ e, (splitExponent cs).1.head? = some e → e = 'e' ∨ e = 'E' := by
  intro e head
  cases cs with
  | nil => cases head
  | cons f cs =>
      simp only [splitExponent] at head
      split at head
      · rename_i marked
        simp only [List.cons_append, List.head?_cons, Option.some.injEq] at head
        subst head
        simp only [Bool.and_eq_true, Bool.or_eq_true, beq_iff_eq] at marked
        exact marked.1
      · cases head

theorem splitDecimalAgain {cs : List Char} (stop : Avoids runsOnNumber tail)
    (point : (splitDecimal cs).1.all isDecimalPart = true → Avoids (· == '.') tail) :
    splitDecimal ((splitDecimal cs).1 ++ tail) = ((splitDecimal cs).1, tail) := by
  have decimal := avoidsDecimal stop
  have all := ofTakeWhile isDecimalPart cs
  generalize whole : cs.takeWhile isDecimalPart = integer at *
  cases fractioned : splitFraction (cs.dropWhile isDecimalPart) with
  | mk fraction afterFraction =>
      cases scaled : splitExponent afterFraction with
      | mk exponent rest =>
          have raw : (splitDecimal cs).1 = integer ++ (fraction ++ exponent) := by
            simp only [splitDecimal, whole, fractioned, scaled, List.append_assoc]
          have mark := @exponentMark afterFraction
          rw [scaled] at mark
          have exponentDecimal : Avoids isDecimalPart exponent := fun e head => by
            obtain rfl | rfl := mark e head <;> decide
          have exponentPoint : Avoids (· == '.') exponent := fun e head => by
            obtain rfl | rfl := mark e head <;> decide
          have fractionDecimal : Avoids isDecimalPart fraction := by
            unfold splitFraction at fractioned
            split at fractioned
            · obtain ⟨rfl, -⟩ := Prod.mk.inj fractioned
              exact avoidsCons (by decide)
            · obtain ⟨rfl, -⟩ := Prod.mk.inj fractioned
              exact avoidsNil
          have tailDecimal := avoidsAppend exponentDecimal decimal
          -- A point is a fraction right behind the integer only; with no fraction and no exponent the tail is there.
          have noPoint : fraction = [] → Avoids (· == '.') (exponent ++ tail) := by
            rintro rfl
            cases exponent with
            | nil =>
                rw [raw] at point
                exact point (by simpa using all)
            | cons e es => exact avoidsCons (exponentPoint e rfl)
          have fractionAgain := splitFractionAgain fractioned tailDecimal noPoint
          have exponentAgain := splitExponentAgain scaled stop
          rw [raw]
          simp only [List.append_assoc, splitDecimal, takeWhileThen all (avoidsAppend fractionDecimal tailDecimal),
            dropWhileThen all (avoidsAppend fractionDecimal tailDecimal), fractionAgain, exponentAgain]

theorem splitNumberPlain {cs : List Char} (plain : ∀ mark es, cs = '0' :: mark :: es → isRadixMark mark = false) :
    splitNumber cs = splitDecimal cs := by
  unfold splitNumber
  split
  · rename_i mark es
    rw [if_neg (by rw [plain mark es rfl]; exact Bool.false_ne_true)]
  · rfl

theorem splitNumberAgain {cs : List Char} (starts : startsNumber cs = true) (stop : Avoids runsOnNumber tail)
    (point : (splitNumber cs).1.all isDecimalPart = true → Avoids (· == '.') tail) :
    splitNumber ((splitNumber cs).1 ++ tail) = ((splitNumber cs).1, tail) := by
  have nonempty := splitNumberNonempty starts
  by_cases radix : ∃ mark es, cs = '0' :: mark :: es ∧ isRadixMark mark = true
  · obtain ⟨mark, es, rfl, isMark⟩ := radix
    have all := ofTakeWhile (fun c => isHexDigit c || c == '_') es
    have other : Avoids (fun c => isHexDigit c || c == '_') tail :=
      stop.weaken fun e other => Bool.eq_false_iff.mpr fun part => by rw [hexRuns part] at other; cases other
    simp only [splitNumber, isMark, if_true, List.cons_append, takeWhileThen all other, dropWhileThen all other]
  · have plain : ∀ mark es, cs = '0' :: mark :: es → isRadixMark mark = false :=
      fun mark es same => Bool.eq_false_iff.mpr fun isMark => radix ⟨mark, es, same, isMark⟩
    have splits := splitNumberSplits cs
    rw [splitNumberPlain plain] at nonempty point splits ⊢
    refine (splitNumberPlain fun mark es same => ?_).trans (splitDecimalAgain stop point)
    generalize (splitDecimal cs).1 = raw at *
    match raw with
    | [] => exact absurd rfl nonempty
    | [first] =>
        -- The mark would be the first character behind the number.
        simp only [List.cons_append, List.nil_append, List.cons.injEq] at same
        refine Bool.eq_false_iff.mpr fun isMark => ?_
        have other := stop mark (by rw [same.2]; rfl)
        simp [runsOnNumber, radixStart isMark] at other
    | first :: second :: others =>
        simp only [List.cons_append, List.cons.injEq] at same splits
        obtain ⟨rfl, rfl, -⟩ := same
        exact plain second _ splits

def Leads (raw : List Char) : Prop :=
  (∃ d ds, raw = d :: ds ∧ d.isDigit = true) ∨ ∃ d ds, raw = '.' :: d :: ds ∧ d.isDigit = true

theorem Leads.append {raw : List Char} (h : Leads raw) (tail : List Char) : Leads (raw ++ tail) := by
  obtain ⟨d, ds, rfl, digit⟩ | ⟨d, ds, rfl, digit⟩ := h
  · exact .inl ⟨d, ds ++ tail, rfl, digit⟩
  · exact .inr ⟨d, ds ++ tail, rfl, digit⟩

theorem startsNumberLead {raw : List Char} (h : Leads raw) : startsNumber (raw ++ tail) = true := by
  obtain ⟨d, ds, rfl, digit⟩ | ⟨d, ds, rfl, digit⟩ := h
  · unfold startsNumber
    split
    · rename_i same
      obtain ⟨rfl, -⟩ := List.cons.inj same
      cases digit
    · rename_i same
      obtain ⟨rfl, -⟩ := List.cons.inj same
      exact digit
    · rename_i same
      cases same
  · exact digit

theorem numberLead {cs : List Char} (h : startsNumber cs = true) : Leads (splitNumber cs).1 := by
  have nonempty := splitNumberNonempty h
  have splits := splitNumberSplits cs
  fun_cases startsNumber cs with
  | case1 c cs =>
      have digit := digitDecimal h
      have point : isDecimalPart '.' = false := by decide
      have plain : ∀ mark es, '.' :: c :: cs = '0' :: mark :: es → isRadixMark mark = false :=
        fun _ _ same => absurd (List.cons.inj same).1 (by decide)
      rw [splitNumberPlain plain]
      exact .inr ⟨c, cs.takeWhile isDecimalPart ++ (splitExponent (cs.dropWhile isDecimalPart)).1,
        by simp [splitDecimal, splitFraction, digit, point], h⟩
  | case2 c cs other =>
      obtain ⟨first, more, raw⟩ := List.exists_cons_of_ne_nil nonempty
      rw [raw, List.cons_append, List.cons.injEq] at splits
      obtain ⟨rfl, -⟩ := splits
      refine .inl ⟨c, more, raw, ?_⟩
      unfold startsNumber at h
      split at h
      · rename_i d ds same
        obtain ⟨rfl, rfl⟩ := List.cons.inj same
        exact (other d ds rfl rfl).elim
      · rename_i same
        obtain ⟨rfl, -⟩ := List.cons.inj same
        exact h
      · cases h
  | case3 => cases h

theorem numberAgain {cs : List Char} (starts : startsNumber cs = true) (valid : (number cs).kind.isInvalid = false)
    (stop : Avoids runsOnNumber tail)
    (point : (number cs).raw.all isDecimalPart = true → Avoids (· == '.') tail) :
    number ((number cs).raw ++ tail) = ⟨(number cs).kind, (number cs).raw, tail⟩ ∧
      startsNumber ((number cs).raw ++ tail) = true := by
  have nonempty := splitNumberNonempty starts
  have splits := splitNumberSplits cs
  simp only [number] at valid point ⊢
  split at valid
  · cases valid
  · rename_i free
    rw [if_neg free] at point ⊢
    have again := splitNumberAgain starts stop point
    have tailFree : tail.head?.any isIdentifierStart = false := by
      cases tail with
      | nil => rfl
      | cons e es =>
          have other := stop e rfl
          simp only [runsOnNumber, Bool.or_eq_false_iff] at other
          simpa using other.1
    refine ⟨?_, ?_⟩
    · simp only [again, tailFree]
      rfl
    · exact startsNumberLead (numberLead starts)

end Numbers

section Strings

theorem splitPlainAgain {quote : Char} (h : (splitPlain quote cs).closed = true) :
    splitPlain quote ((splitPlain quote cs).raw ++ tail) = ⟨(splitPlain quote cs).raw, tail, true⟩ := by
  fun_induction splitPlain quote cs with
  | case1 => cases h
  | case2 c cs close => simp [splitPlain, close]
  | case3 c cs other ih =>
      have again := ih h
      simp [splitPlain, Body.cons, other, again]

theorem splitEscapedPlain {quote c : Char} (other : c ≠ '\\') : splitEscaped quote (c :: cs) =
    if c == quote then ⟨[c], cs, true⟩ else if Trivia.endsLine c then ⟨[], c :: cs, false⟩
    else (splitEscaped quote cs).cons c := by
  rw [splitEscaped]
  · intro _ same
    exact absurd same other
  · intro _ _ same
    exact absurd same other

theorem closedNonempty {quote : Char} (h : (splitEscaped quote cs).closed = true) :
    (splitEscaped quote cs).raw ≠ [] := by
  fun_induction splitEscaped quote cs with
  | case1 => cases h
  | case2 | case3 | case4 | case6 => exact List.cons_ne_nil _ _
  | case5 => cases h

theorem splitEscapedAgain {quote : Char} (mark : quote ≠ '\\') (h : (splitEscaped quote cs).closed = true) :
    splitEscaped quote ((splitEscaped quote cs).raw ++ tail) = ⟨(splitEscaped quote cs).raw, tail, true⟩ := by
  fun_induction splitEscaped quote cs with
  | case1 => cases h
  | case2 cs ih =>
      have again := ih h
      simp [splitEscaped, Body.cons, again]
  | case3 c cs other ih =>
      have again := ih h
      have splits := splitEscapedSplits quote cs
      -- An escaped carriage return takes a line feed along, so that none may come to stand behind it.
      have kept : ∀ es, c = '\r' → (splitEscaped quote cs).raw ++ tail = '\n' :: es → False := by
        intro es back same
        obtain ⟨e, more, raw⟩ := List.exists_cons_of_ne_nil (closedNonempty h)
        rw [raw, List.cons_append] at same splits
        obtain ⟨rfl, -⟩ := List.cons.inj same
        exact other _ back splits
      simp only [Body.cons, List.cons_append]
      rw [splitEscaped.eq_3 quote c _ kept, again]
      rfl
  | case4 c cs first second close =>
      have other : c ≠ '\\' := by
        rintro rfl
        exact mark (by simpa using Eq.symm (beq_iff_eq.mp close))
      simp only [List.cons_append, List.nil_append, splitEscapedPlain other, close, if_true]
  | case5 => cases h
  | case6 c cs first second open? line ih =>
      have again := ih h
      have other : c ≠ '\\' := by
        rintro rfl
        cases cs with
        | nil => cases h
        | cons e es => exact second e es rfl rfl
      simp only [Body.cons, List.cons_append, splitEscapedPlain other, if_neg open?, if_neg line, again]

theorem quotedAgain {quote : Char} (mark : (quote == '"' || quote == '\'') = true)
    (valid : (quoted m quote cs).kind.isInvalid = false) :
    ∃ raw, (quoted m quote cs).raw = quote :: raw ∧
      quoted m quote (raw ++ tail) = ⟨(quoted m quote cs).kind, (quoted m quote cs).raw, tail⟩ := by
  have other : quote ≠ '\\' := by
    rintro rfl
    cases mark
  unfold quoted at valid ⊢
  cases m with
  | script =>
      simp only [reduceCtorEq, if_false] at valid ⊢
      by_cases closed : (splitEscaped quote cs).closed = true
      · have again := @splitEscapedAgain cs tail quote other closed
        simp only [closed, if_true] at valid ⊢
        exact ⟨_, rfl, by simp only [again, if_true]⟩
      · rw [if_neg closed] at valid
        cases valid
  | jsx =>
      simp only [if_true] at valid ⊢
      by_cases closed : (splitPlain quote cs).closed = true
      · have again := @splitPlainAgain cs tail quote closed
        simp only [closed, if_true] at valid ⊢
        exact ⟨_, rfl, by simp only [again, if_true]⟩
      · rw [if_neg closed] at valid
        cases valid

end Strings

section Punctuators

def followers (m : Mode) (o : String) : List Char :=
  (punctuators m).filterMap fun p => if o.toList.isPrefixOf p.toList then p.toList[o.toList.length]? else none

/-- Whether a character behind a token would make another token of it, or a comment. -/
def runsOn (m : Mode) : Token.Kind → Char → Bool
  | .punctuator o, c => (followers m o).contains c || (o == "/" && (c == '/' || c == '*')) || (o == "." && c.isDigit)
  | .numericLiteral raw, c => isIdentifierPart c || (c == '.' && raw.toList.all isDecimalPart)
  | .stringLiteral _, _ | .jsxText _, _ | .invalid _ _, _ => false
  | .identifier _, c | .jsxIdentifier _, c | .boolean _, c | .null, c => isWordPart m c

theorem punctuatorsSorted (m : Mode) :
    (punctuators m).Pairwise fun o p => p.toList.length ≤ o.toList.length := by
  cases m <;> decide

theorem punctuatorLongest {o p : String} (found : punctuator? m cs = some o) (known : p ∈ punctuators m)
    (front : p.toList <+: cs) : p.toList.length ≤ o.toList.length := by
  obtain ⟨-, before, after, whole, earlier⟩ := List.find?_eq_some_iff_append.mp found
  have sorted := punctuatorsSorted m
  rw [whole] at sorted known
  obtain inside | same | inside : p ∈ before ∨ p = o ∨ p ∈ after := by simpa using known
  · have misfit := earlier p inside
    rw [List.isPrefixOf_iff_prefix.mpr front] at misfit
    cases misfit
  · exact Nat.le_of_eq (congrArg (·.toList.length) same)
  · exact (List.pairwise_cons.mp (List.pairwise_append.mp sorted).2.1).1 p inside

theorem punctuatorAgain {o : String} (known : o ∈ punctuators m) (stop : Avoids (runsOn m (.punctuator o)) tail) :
    punctuator? m (o.toList ++ tail) = some o := by
  have fits : o.toList.isPrefixOf (o.toList ++ tail) = true :=
    List.isPrefixOf_iff_prefix.mpr (List.prefix_append _ _)
  cases found : punctuator? m (o.toList ++ tail) with
  | none =>
      have misfit := List.find?_eq_none.mp found o known
      exact absurd fits misfit
  | some p =>
      have front := List.isPrefixOf_iff_prefix.mp (List.find?_eq_some_iff_append.mp found).1
      have member : p ∈ punctuators m := List.mem_of_find?_eq_some found
      refine congrArg some (String.toList_inj.mp ?_)
      by_cases longer : p.toList.length ≤ o.toList.length
      · have later := punctuatorLongest found known (List.prefix_append _ _)
        exact (List.prefix_of_prefix_length_le front (List.prefix_append _ _) longer).eq_of_length_le later
      · -- A longer one would run on.
        obtain ⟨more, same⟩ := List.prefix_of_prefix_length_le (List.prefix_append _ _) front (Nat.le_of_not_le longer)
        cases more with
        | nil => exact (by simpa using same.symm)
        | cons e es =>
            rw [← same, List.prefix_append_right_inj] at front
            obtain ⟨rest, tailed⟩ := front
            have other := stop e (by rw [← tailed]; rfl)
            have follows : (followers m o).contains e = true := by
              refine List.contains_iff_mem.mpr (List.mem_filterMap.mpr ⟨p, member, ?_⟩)
              rw [← same, if_pos (List.isPrefixOf_iff_prefix.mpr (List.prefix_append _ _))]
              simp
            simp only [runsOn, follows, Bool.true_or] at other
            cases other

end Punctuators

section Again

theorem splitPieceNone {f : Char} {es : List Char} (solid : Trivia.isBlank f = false) (other : f ≠ '/') :
    Trivia.splitPiece (f :: es) = none := by
  unfold Trivia.splitPiece
  split
  · rename_i same
    exact absurd (List.cons.inj same).1 other
  · rename_i same
    exact absurd (List.cons.inj same).1 other
  · rename_i same
    obtain ⟨rfl, -⟩ := List.cons.inj same
    rw [if_neg (by rw [solid]; exact Bool.false_ne_true)]
  · rfl

theorem splitPieceSlash {es : List Char} (stop : Avoids (fun c => c == '/' || c == '*') es) :
    Trivia.splitPiece ('/' :: es) = none := by
  unfold Trivia.splitPiece
  split
  · rename_i same
    obtain ⟨-, rfl⟩ := List.cons.inj same
    have other := stop _ rfl
    cases other
  · rename_i same
    obtain ⟨-, rfl⟩ := List.cons.inj same
    have other := stop _ rfl
    cases other
  · rename_i same
    obtain ⟨rfl, -⟩ := List.cons.inj same
    have solid : Trivia.isBlank '/' = false := by decide
    rw [if_neg (by rw [solid]; exact Bool.false_ne_true)]
  · rfl

theorem opensCommentNone {cs : List Char}
    (stop : ∀ es, cs = '/' :: es → Avoids (fun c => c == '/' || c == '*') es) : Trivia.opensComment cs = false := by
  unfold Trivia.opensComment
  split
  · rename_i es
    have other := stop _ rfl '*' rfl
    cases other
  · rfl

def leadsAlone (o : String) : List Char → Bool
  | [] => false
  | f :: es => !Trivia.isBlank f && !isIdentifierStart f && !f.isDigit && !(f == '"' || f == '\'') &&
      (f != '/' || o == "/" || es == ['=']) && (f != '.' || o == "." || es == ['.', '.'])

theorem punctuatorLead {o : String} (known : o ∈ punctuators m) : ∃ f es, o.toList = f :: es ∧
    Trivia.isBlank f = false ∧ isIdentifierStart f = false ∧ f.isDigit = false ∧ (f == '"' || f == '\'') = false ∧
    (f = '/' → o = "/" ∨ es = ['=']) ∧ (f = '.' → o = "." ∨ es = ['.', '.']) := by
  have all : ∀ m, ∀ o ∈ punctuators m, leadsAlone o o.toList = true := by
    intro m; cases m <;> decide
  have lead := all m o known
  cases text : o.toList with
  | nil => rw [text] at lead; cases lead
  | cons f es =>
      rw [text] at lead
      simp only [leadsAlone, Bool.and_eq_true, Bool.not_eq_true', Bool.or_eq_true, bne_iff_ne, beq_iff_eq] at lead
      obtain ⟨⟨⟨⟨⟨blank, start⟩, digit⟩, quote⟩, slash⟩, point⟩ := lead
      refine ⟨f, es, rfl, blank, start, digit, quote, fun same => ?_, fun same => ?_⟩
      · simpa [same] using slash
      · simpa [same] using point

theorem nextPunctuator {o : String} (known : o ∈ punctuators m) (stop : Avoids (runsOn m (.punctuator o)) tail) :
    Trivia.splitPiece (o.toList ++ tail) = none ∧
      next? m (o.toList ++ tail) = some ⟨.punctuator o, o.toList, tail⟩ := by
  have again := punctuatorAgain known stop
  obtain ⟨f, es, text, blank, start, digit, quote, slash, point⟩ := punctuatorLead known
  -- With what comes behind it a slash must not open a comment, nor a point start a number.
  have comment : f = '/' → Avoids (fun c => c == '/' || c == '*') (es ++ tail) := by
    intro same
    obtain rfl | rfl := slash same
    · cases (List.cons.inj text).2
      refine stop.weaken fun e other => ?_
      simp only [runsOn, Bool.or_eq_false_iff] at other
      simpa using other.1.2
    · exact avoidsCons (by decide)
  have piece : Trivia.splitPiece (f :: (es ++ tail)) = none := by
    by_cases same : f = '/'
    · rw [same]
      exact splitPieceSlash (comment same)
    · exact splitPieceNone blank same
  have noComment : Trivia.opensComment (f :: (es ++ tail)) = false :=
    opensCommentNone fun es' same => by
      obtain ⟨rfl, rfl⟩ := List.cons.inj same
      exact comment rfl
  have noNumber : startsNumber (f :: (es ++ tail)) = false := by
    unfold startsNumber
    split
    · rename_i c rest same
      obtain ⟨rfl, behind⟩ := List.cons.inj same
      obtain rfl | rfl := point rfl
      · cases (List.cons.inj text).2
        have other := stop c (by rw [show tail = c :: rest from behind]; rfl)
        simp only [runsOn, Bool.or_eq_false_iff] at other
        simpa using other.2
      · rw [← (List.cons.inj behind).1]
        rfl
    · rename_i same
      obtain ⟨rfl, -⟩ := List.cons.inj same
      exact digit
    · rfl
  rw [text, List.cons_append] at again ⊢
  refine ⟨piece, ?_⟩
  simp only [next?, noComment, start, noNumber, quote, Bool.and_false, punctuator, again, text]
  simp

theorem digitStart {c : Char} (h : c.isDigit = true) : isIdentifierStart c = false := by
  have code : c.toNat ∈ [48, 49, 50, 51, 52, 53, 54, 55, 56, 57] := by
    simp only [Char.isDigit, Bool.and_eq_true, decide_eq_true_eq] at h
    have lower : 48 ≤ c.toNat := h.1
    have upper : c.toNat ≤ 57 := h.2
    simp only [List.mem_cons, List.not_mem_nil, or_false]
    omega
  have all : ∀ n ∈ [48, 49, 50, 51, 52, 53, 54, 55, 56, 57], isIdentifierStart (Char.ofNat n) = false := by
    decide
  have start := all _ code
  rwa [Char.ofNat_toNat] at start

theorem digitUnblank {c : Char} (h : c.isDigit = true) : Trivia.isBlank c = false := by
  refine Bool.eq_false_iff.mpr fun blank => ?_
  have part := blankPart blank
  rw [decimalPart (digitDecimal h)] at part
  cases part

theorem nextNumber {cs : List Char} (starts : startsNumber cs = true) (lead : Leads cs) :
    Trivia.splitPiece cs = none ∧ next? .script cs = some (number cs) := by
  obtain ⟨f, es, rfl, solid, other, start⟩ : ∃ f es, cs = f :: es ∧ Trivia.isBlank f = false ∧ f ≠ '/' ∧
      isIdentifierStart f = false := by
    obtain ⟨d, ds, rfl, digit⟩ | ⟨d, ds, rfl, digit⟩ := lead
    · refine ⟨d, ds, rfl, digitUnblank digit, ?_, digitStart digit⟩
      rintro rfl
      cases digit
    · exact ⟨'.', d :: ds, rfl, by decide, by decide, by decide⟩
  refine ⟨splitPieceNone solid other, ?_⟩
  simp only [next?, @opensCommentSlash f es other, start, starts]
  rfl

theorem wordStop (isWord : k.isWord = true) (stop : Avoids (runsOn m k) tail) : Avoids (isWordPart m) tail := by
  cases k <;> first | exact stop | cases isWord

theorem numberRuns {c : Char} (h : runsOnNumber c = true) : isIdentifierPart c = true := by
  rw [runsOnNumber, Bool.or_eq_true] at h
  cases h with
  | inl start => exact startPart start
  | inr digit => exact decimalPart (digitDecimal digit)

theorem numberStop {raw : String} (stop : Avoids (runsOn m (.numericLiteral raw)) tail) :
    Avoids runsOnNumber tail ∧ (raw.toList.all isDecimalPart = true → Avoids (· == '.') tail) := by
  constructor
  · refine stop.weaken fun e other => ?_
    simp only [runsOn, Bool.or_eq_false_iff] at other
    exact Bool.eq_false_iff.mpr fun runs => by rw [numberRuns runs] at other; cases other.1
  · intro decimal
    refine stop.weaken fun e other => ?_
    simp only [runsOn, decimal, Bool.and_true, Bool.or_eq_false_iff] at other
    exact other.2

/-- A token is read again in front of any text that does not run on from it. -/
theorem nextAgain (h : next? m cs = some l) (valid : l.kind.isInvalid = false)
    (stop : Avoids (runsOn m l.kind) tail) :
    Trivia.splitPiece (l.raw ++ tail) = none ∧ next? m (l.raw ++ tail) = some ⟨l.kind, l.raw, tail⟩ := by
  obtain bad | ⟨f, es, -, start, rfl⟩ | ⟨rfl, starts, rfl⟩ | ⟨q, es, -, mark, rfl⟩ | ⟨f, es, -, rfl⟩ := nextCases h
  · rw [valid] at bad
    cases bad
  · have part : Avoids (isWordPart m) tail := wordStop (wordIsWord m _) stop
    refine ⟨splitPieceNone (startUnblank start) (startOther start '/' (by decide)), ?_⟩
    rw [show (word m f es).raw ++ tail = f :: (es.takeWhile (isWordPart m) ++ tail) from rfl, nextWord start,
      wordAgain part]
  · obtain bad | kind := numberKind cs
    · rw [valid] at bad
      cases bad
    · rw [kind] at stop
      obtain ⟨part, point⟩ := numberStop stop
      obtain ⟨again, starts'⟩ := numberAgain starts valid part (by simpa using point)
      have lead : Leads ((number cs).raw ++ tail) := by
        have raw : (number cs).raw = (splitNumber cs).1 := by
          simp only [number] at valid ⊢
          split at valid
          · cases valid
          · rename_i free
            rw [if_neg free]
        rw [raw]
        exact (numberLead starts).append tail
      obtain ⟨piece, next⟩ := nextNumber starts' lead
      exact ⟨piece, by rw [next, again]⟩
  · obtain ⟨raw, same, again⟩ := @quotedAgain m es tail q mark valid
    rw [same, List.cons_append]
    have solid : Trivia.isBlank q = false ∧ q ≠ '/' ∧ isIdentifierStart q = false ∧
        ∀ es, startsNumber (q :: es) = false := by
      rw [Bool.or_eq_true, beq_iff_eq, beq_iff_eq] at mark
      obtain rfl | rfl := mark <;> exact ⟨by decide, by decide, by decide, fun _ => rfl⟩
    refine ⟨splitPieceNone solid.1 solid.2.1, ?_⟩
    simp only [next?, @opensCommentSlash q (raw ++ tail) solid.2.1, solid.2.2.1, solid.2.2.2, mark, Bool.and_false,
      again, same]
    rfl
  · obtain bad | ⟨o, known, same⟩ := punctuatorKind m f es
    · rw [valid] at bad
      cases bad
    · rw [same] at stop ⊢
      exact nextPunctuator known stop

def Free (m : Mode) (o : String) : Prop := o ∈ punctuators m ∧ followers m o = [] ∧ o ≠ "/" ∧ o ≠ "."

instance (m : Mode) (o : String) : Decidable (Free m o) := inferInstanceAs (Decidable (_ ∧ _))

theorem freeScript : ∀ o ∈ ["(", ")", "[", "]", ",", "\x7d", "..."], Free .script o := by decide

theorem freeJsx : ∀ o ∈ ["<", ">", "=", ":", "\x7b"], Free .jsx o := by decide

theorem followersJsx : ∀ o ∈ punctuators .jsx, followers .jsx o = [] := by decide

theorem Free.stop {o : String} (h : Free m o) (cs : List Char) : Avoids (runsOn m (.punctuator o)) cs := by
  obtain ⟨-, none, slash, point⟩ := h
  intro e _
  simp [runsOn, none, slash, point]

def Whole (m : Mode) (k : Token.Kind) : Prop :=
  next? m k.text.toList = some ⟨k, k.text.toList, []⟩ ∧ k.isInvalid = false

instance (m : Mode) (k : Token.Kind) : Decidable (Whole m k) := inferInstanceAs (Decidable (_ ∧ _))

theorem wholeOf (h : next? m cs = some l) (valid : l.kind.isInvalid = false) : Whole m l.kind := by
  have again := (nextAgain h valid avoidsNil).2
  rw [List.append_nil] at again
  have text := (nextCuts h).text
  refine ⟨?_, valid⟩
  rw [text, String.toList_ofList]
  exact again

theorem Whole.next (h : Whole m k) (stop : Avoids (runsOn m k) tail) :
    Trivia.splitPiece (k.text.toList ++ tail) = none ∧
      next? m (k.text.toList ++ tail) = some ⟨k, k.text.toList, tail⟩ :=
  nextAgain h.1 h.2 stop

end Again

end Lexeme

end JsxTree
