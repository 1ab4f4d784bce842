import JsxTree.Proofs.Positions
import JsxTree.Proofs.Slices
import JsxTree.Proofs.Tags

/-! Quoted texts: the writer of string literals, the two ways they are lexed, the grammar and the decoder agree.
What is written is cut at the closing quote, no sooner and no later, and decodes to the text it was written for. -/
namespace JsxTree

namespace Literal

variable {q : Char}

section Decoding

def marks : List Char := "01234567bfnrtuvx".toList

theorem octalMarked {c : Char} (octal : Escape.isOctalDigit c = true) : c ∈ marks := by
  have known : ∀ n < 56, 48 ≤ n → Char.ofNat n ∈ marks := by decide
  obtain ⟨low, high⟩ : '0' ≤ c ∧ c ≤ '7' := by simpa [Escape.isOctalDigit] using octal
  have marked := known c.toNat (Nat.lt_succ_of_le high) low
  rwa [Char.ofNat_toNat] at marked

theorem splitUnmarked {c : Char} (unmarked : c ∉ marks) (line : Text.isLineBreak c = false) (cs : List Char) :
    Escape.split (c :: cs) = (.text [c], cs) := by
  have octal : Escape.isOctalDigit c = false := Bool.eq_false_iff.mpr fun octal => unmarked (octalMarked octal)
  have letters : ∀ e ∈ ['u', 'x', 'n', 'f', 'r', 't', 'v', 'b'], c ≠ e := by
    rintro e inside rfl
    exact unmarked (Text.every (P := (· ∈ marks)) (by decide) c inside)
  have solid : c ≠ '\r' := by rintro rfl; cases line
  simp only [List.mem_cons, List.not_mem_nil, forall_eq_or_imp, or_false, forall_eq] at letters
  unfold Escape.split
  split <;> simp_all

theorem decodePlain {c : Char} (plain : c ≠ '\\') (cs : List Char) : decode (c :: cs) = c :: decode cs := by
  rw [decode, if_pos plain]

theorem decodeSlash (cs : List Char) : decode ('\\' :: cs) = match Escape.split cs with
    | (.text text, rest) => text ++ decode rest
    | (.code n, rest) =>
        if isHighSurrogate n then
          match lowSurrogate? rest with
          | some (low, rest') => charAt (0x10000 + (n - 0xD800) * 0x400 + (low - 0xDC00)) :: decode rest'
          | none => replacement :: decode rest
        else charAt n :: decode rest := by
  rw [decode, if_neg (by simp)]
  split
  · rename_i same
    rw [same]
  · rename_i same
    simp only [same]
    congr 1
    split
    all_goals
      rename_i pair
      rw [pair]

theorem decodeText {cs text rest : List Char} (split : Escape.split cs = (.text text, rest)) :
    decode ('\\' :: cs) = text ++ decode rest := by
  rw [decodeSlash, split]

theorem decodeCode {n : Nat} {cs rest : List Char} (split : Escape.split cs = (.code n, rest)) (whole : isHighSurrogate n = false) :
    decode ('\\' :: cs) = charAt n :: decode rest := by
  simp only [decodeSlash, split, whole, Bool.false_eq_true, if_false]

theorem decodePiece (unmarked : q ∉ marks) (c : Char) (cs : List Char) :
    decode (encodeChar q c ++ cs) = c :: decode cs := by
  by_cases slash : c = '\\'
  · subst slash
    exact decodeText (show Escape.split ('\\' :: cs) = (.text ['\\'], cs) from rfl)
  by_cases feed : c = '\n'
  · subst feed
    exact decodeText (show Escape.split ('n' :: cs) = (.text ['\n'], cs) from rfl)
  by_cases back : c = '\r'
  · subst back
    exact decodeText (show Escape.split ('r' :: cs) = (.text ['\r'], cs) from rfl)
  by_cases line : c = '\u2028'
  · subst line
    exact decodeCode (show Escape.split ('u' :: '2' :: '0' :: '2' :: '8' :: cs) = (.code 0x2028, cs) from rfl) rfl
  by_cases paragraph : c = '\u2029'
  · subst paragraph
    exact decodeCode (show Escape.split ('u' :: '2' :: '0' :: '2' :: '9' :: cs) = (.code 0x2029, cs) from rfl) rfl
  simp only [encodeChar, slash, feed, back, line, paragraph, if_false]
  split
  · rename_i same
    subst same
    exact decodeText (splitUnmarked unmarked (by simp [Text.isLineBreak, feed, back, line, paragraph]) cs)
  · exact decodePlain slash cs

theorem decodeEncoded (unmarked : q ∉ marks) (cs : List Char) : decode (cs.flatMap (encodeChar q)) = cs := by
  induction cs with
  | nil => rw [List.flatMap_nil, decode]
  | cons c cs ih => rw [List.flatMap_cons, decodePiece unmarked, ih]

theorem unquoteQuoted (s : String) (q : Char) :
    unquote (quote s q) = String.ofList (decode (s.toList.flatMap (encodeChar q))) := by
  simp only [unquote, quote, String.toList_ofList, List.cons_append, List.drop_succ_cons, List.drop_zero,
    List.dropLast_concat]

theorem unquoteQuote (unmarked : q ∉ marks) (s : String) : unquote (quote s q) = s := by
  rw [unquoteQuoted, decodeEncoded unmarked, String.ofList_toList]

theorem quoteUnmarked (mark : q = '"' ∨ q = '\'') : q ∉ marks := by obtain rfl | rfl := mark <;> decide

def Escape.first? : Escape → Option Char
  | .text cs => cs.head?
  | .code n => if isHighSurrogate n then none else some (charAt n)

theorem decodeFirst {e : Escape} {c : Char} {cs rest : List Char} (split : Escape.split cs = (e, rest))
    (first : e.first? = some c) : (decode ('\\' :: cs)).head? = some c := by
  cases e with
  | text text =>
      rw [decodeText split, List.head?_append, show text.head? = some c from first, Option.some_or]
  | code n =>
      simp only [Escape.first?] at first
      split at first
      · cases first
      · rename_i whole
        rw [decodeCode split (Bool.eq_false_iff.mpr whole), List.head?_cons, first]

theorem markMisread (mark : q ∈ marks) : unquote (quote (String.ofList [q, '1']) q) ≠ String.ofList [q, '1'] := by
  have other : ∀ q ∈ marks, ((Escape.split (q :: encodeChar q '1')).1.first?.any (· != q)) = true :=
    Text.every (by decide)
  have escaped : ∀ q ∈ marks, encodeChar q q = ['\\', q] := Text.every (by decide)
  obtain ⟨c, first, differs⟩ := (Option.any_eq_true _ _).mp (other q mark)
  have head := decodeFirst (Prod.mk.eta (p := Escape.split _)).symm first
  intro same
  have back : decode ('\\' :: q :: encodeChar q '1') = [q, '1'] := by
    simpa [unquoteQuoted, escaped q mark] using congrArg String.toList same
  rw [back, List.head?_cons, Option.some_inj] at head
  simp [head] at differs

/-- Quoting is undone for all texts exactly if the quote is no mark. -/
theorem quoteUndone (q : Char) : (∀ s, unquote (quote s q) = s) ↔ q ∉ marks :=
  ⟨fun undone mark => markMisread mark (undone _), fun unmarked s => unquoteQuote unmarked s⟩

end Decoding

section Lexing

open Lexeme

theorem splitEscapedPiece (mark : q = '"' ∨ q = '\'') (c : Char) (cs : List Char) :
    splitEscaped q (encodeChar q c ++ cs) =
      { splitEscaped q cs with raw := encodeChar q c ++ (splitEscaped q cs).raw } := by
  by_cases slash : c = '\\'
  · subst slash
    rfl
  by_cases feed : c = '\n'
  · subst feed
    rfl
  by_cases back : c = '\r'
  · subst back
    rfl
  by_cases line : c = '\u2028'
  · subst line
    obtain rfl | rfl := mark <;> rfl
  by_cases paragraph : c = '\u2029'
  · subst paragraph
    obtain rfl | rfl := mark <;> rfl
  simp only [encodeChar, slash, feed, back, line, paragraph, if_false]
  split
  · rename_i same
    subst same
    obtain rfl | rfl := mark <;> rfl
  · rename_i other
    rw [List.singleton_append, splitEscapedPlain slash, if_neg (by simpa using other),
      if_neg (by simp [Trivia.endsLine, feed, back])]
    rfl

theorem splitEncoded (mark : q = '"' ∨ q = '\'') (cs tail : List Char) :
    splitEscaped q (cs.flatMap (encodeChar q) ++ q :: tail) = ⟨cs.flatMap (encodeChar q) ++ [q], tail, true⟩ := by
  induction cs with
  | nil =>
      have plain : q ≠ '\\' := by rintro rfl; cases mark <;> contradiction
      rw [List.flatMap_nil, List.nil_append, splitEscapedPlain plain, if_pos (beq_self_eq_true q)]
      rfl
  | cons c cs ih => rw [List.flatMap_cons, List.append_assoc, splitEscapedPiece mark, ih, List.append_assoc]

theorem splitUnescaped {cs : List Char} (free : q ∉ cs) (tail : List Char) :
    splitPlain q (cs ++ q :: tail) = ⟨cs ++ [q], tail, true⟩ := by
  induction cs with
  | nil => simp [splitPlain]
  | cons c cs ih =>
      have other : ¬(c == q) = true := fun same => List.ne_of_not_mem_cons free (beq_iff_eq.mp same).symm
      rw [List.cons_append, splitPlain, if_neg other, ih (List.not_mem_of_not_mem_cons free)]
      rfl

theorem encodedFree (mark : q = '"' ∨ q = '\'') {cs : List Char} (free : q ∉ cs) :
    q ∉ cs.flatMap (encodeChar q) := by
  have letters : ∀ e ∈ "\\nru20289".toList, q ≠ e := by
    obtain rfl | rfl := mark <;> exact Text.every (by decide)
  simp only [List.mem_flatMap, not_exists, not_and]
  intro c inside
  have other : c ≠ q := fun same => free (same ▸ inside)
  unfold encodeChar
  repeat' split
  all_goals simp_all [eq_comm]

theorem quoteText (s : String) (q : Char) : (quote s q).toList = q :: (s.toList.flatMap (encodeChar q) ++ [q]) :=
  String.toList_ofList

theorem quotedQuote {m : Mode} (mark : q = '"' ∨ q = '\'') {s : String} (free : m = .jsx → q ∉ s.toList) :
    quoted m q (s.toList.flatMap (encodeChar q) ++ [q]) = ⟨.stringLiteral (quote s q), (quote s q).toList, []⟩ := by
  cases m with
  | script =>
      simp only [quoted, reduceCtorEq, if_false, splitEncoded mark, quoteText]
      rfl
  | jsx =>
      simp only [quoted, if_true, splitUnescaped (encodedFree mark (free rfl)), quoteText]
      rfl

theorem wholeQuote {m : Mode} (mark : q = '"' ∨ q = '\'') {s : String} (free : m = .jsx → q ∉ s.toList) :
    Whole m (.stringLiteral (quote s q)) := by
  have opens : ∀ cs, Trivia.opensComment (q :: cs) = false := by
    intro cs
    obtain rfl | rfl := mark <;> exact opensCommentSlash (by decide)
  have starts : isIdentifierStart q = false := by obtain rfl | rfl := mark <;> exact unstarted _ (by decide)
  have number : ∀ cs, startsNumber (q :: cs) = false := by
    intro cs
    obtain rfl | rfl := mark <;> rfl
  have marked : (q == '"' || q == '\'') = true := by simpa using mark
  refine ⟨?_, rfl⟩
  rw [Token.Kind.text, quoteText, next?, opens, starts, number, marked, Bool.and_false, quotedQuote mark free, quoteText]
  rfl

theorem quoteStarts (mark : q = '"' ∨ q = '\'') (s : String) : ∃ es, (quote s q).toList = q :: es ∧
    Trivia.isBlank q = false ∧ q ≠ '/' := by
  refine ⟨_, String.toList_ofList, ?_⟩
  obtain rfl | rfl := mark <;> decide

end Lexing

end Literal

namespace Grammar

open Cursor Lexeme JsxTree.Parser

variable {x : Setting} {s : String} {q : Char}

theorem readsQuote (mark : q = '"' ∨ q = '\'') {m : Mode} (free : m = .jsx → q ∉ s.toList) {c : Cursor} {tail : List Char}
    (behind : c.rest = (Literal.quote s q).toList ++ tail) :
    ∃ c', c.next? m = some (.stringLiteral (Literal.quote s q), c') ∧ c'.rest = tail ∧ c.skip = c := by
  obtain ⟨es, text, plain⟩ := Literal.quoteStarts mark s
  have solid : c.skip = c := skipFirst plain.1 plain.2 (by rw [behind, text, List.cons_append])
  obtain ⟨c', next, rest⟩ := nextWhole (Literal.wholeQuote mark free) (fun _ _ => rfl) (by rw [solid, behind]; rfl)
  exact ⟨c', next, rest, solid⟩

theorem valueQuote (mark : q = '"' ∨ q = '\'') (s : String) :
    literalValue? (.stringLiteral (Literal.quote s q)) = some (.string s) := by
  rw [literalValue?, Literal.unquoteQuote (Literal.quoteUnmarked mark)]

theorem quoteParses (mark : q = '"' ∨ q = '\'') (s : String) (config : Config) (file : Option String) :
    parse (Literal.quote s q) config file =
      .ok ⟨.literal (.string s) (Literal.quote s q), .ofText [] (Literal.quote s q).toList file⟩ := by
  have behind : (Cursor.start (Literal.quote s q)).rest = (Literal.quote s q).toList ++ [] := (List.append_nil _).symm
  obtain ⟨b, next, rest, solid⟩ := readsQuote (m := .script) mark (by simp) behind
  have nothing : b.next? .script = none := nextNothing rest
  have placed := (startWithin _).spans (skipReaches next) [] _ (by rw [solid, rest, behind]) (by rw [solid]; rfl) file
  rw [← placed]
  exact chainParses (.chain (.literal next (valueQuote mark s)) (.noSuffix (stopsNothing nothing))) nothing

def assigning (s raw : String) (file : Option String) : Node :=
  let at? := fun front text : String => Span.ofText front.toList text.toList file
  let value : Node := ⟨.literal (.string s) raw, at? "<a b=" raw⟩
  let assigned : Node := ⟨.jsxAttribute ⟨.jsxIdentifier "b", at? "<a " "b"⟩ (some value), at? "<a " ("b=" ++ raw)⟩
  let whole := at? "" ("<a b=" ++ raw ++ " />")
  ⟨.element ⟨.openingElement ⟨.jsxIdentifier "a", at? "<" "a"⟩ (some [assigned]) true, whole⟩ none none, whole⟩

theorem assignedQuoteParses (mark : q = '"' ∨ q = '\'') (free : q ∉ s.toList) {config : Config} (allowed : config.jsx = true)
    (room : 0 < config.maxDepth) (file : Option String) :
    parse ("<a b=" ++ Literal.quote s q ++ " />") config file = .ok (assigning s (Literal.quote s q) file) := by
  have whole : (Cursor.start ("<a b=" ++ Literal.quote s q ++ " />")).rest =
      '<' :: 'a' :: ' ' :: 'b' :: '=' :: ((Literal.quote s q).toList ++ [' ', '/', '>']) := by
    simp only [Cursor.start, String.toList_append]
    rfl
  have within := startWithin ("<a b=" ++ Literal.quote s q ++ " />")
  generalize sourced : "<a b=" ++ Literal.quote s q ++ " />" = source at whole within ⊢
  have solid : (Cursor.start source).skip = .start source := skipFirst (by decide) (by decide) whole
  obtain ⟨c₁, c₂, c₃, c₄, opens, name, rest₂, own, equals, rest₄, assigns⟩ :=
    @assignmentReads ⟨config, file⟩ 0 _ [] _ room (solid ▸ whole)
  have blank := skipBlank rest₂ rfl
  obtain ⟨c₅, value, rest₅, solid₄⟩ := readsQuote (m := .jsx) mark (fun _ => free) rest₄
  obtain ⟨c₇, rest₇, element⟩ := assigns (.stringValue value) (skipBlank rest₅ rfl)
  have parsed := primaryParses (.elementPrimary allowed element) (nextNothing rest₇)
  -- It remains to find where everything stands: each span is counted off the text in front of it.
  have within₁ := (nextReaches opens).within within
  have within₂ := (nextReaches name).within within₁
  have within₄ := (nextReaches equals).within ((nextReaches own).within within₂)
  have nameSpan := within₁.spans (skipReaches name) ['<'] _ (nextTraces name).1.1
    (by rw [(nextTraces name).1.1, rest₂]; exact whole) file
  have ownSpan := within₂.spans (skipReaches own) ['<', 'a', ' '] _ (nextTraces own).1.1
    (by rw [blank]; exact whole) file
  have valueSpan := within₄.spans (skipReaches value) ['<', 'a', ' ', 'b', '='] _ (nextTraces value).1.1
    (by rw [solid₄, rest₄]; exact whole) file
  have assignedSpan : (⟨.jsxIdentifier "b", c₂.spanTo c₃ file⟩ : Node).spanUpTo c₅ file = _ :=
    within₂.spans ((skipReaches own).trans ((nextReaches equals).trans (nextReaches value)))
      ['<', 'a', ' '] ("b=" ++ Literal.quote s q).toList
      (by rw [blank, rest₅, String.toList_append]; rfl) (by rw [blank]; exact whole) file
  have goes : (Cursor.start source).Advances c₇ := Reads.goes element
  have span := within.spans (solid.symm ▸ goes.reaches) [] source.toList
    (by rw [solid, rest₇, List.append_nil]; rfl) (by rw [solid]; rfl) file
  refine parsed.trans (congrArg Except.ok ?_)
  rw [assignedSpan, nameSpan, ownSpan, valueSpan, span, Literal.unquoteQuote (Literal.quoteUnmarked mark), assigning, sourced]
  rfl

/-- A quoted text is accepted whatever the settings, as one literal that spans it; as the value of an attribute too, as
long as its quote does not stand in it. -/
theorem quotedReadsBack (mark : q = '"' ∨ q = '\'') (s : String) (config : Config) (file : Option String) :
    parse (Literal.quote s q) config file =
        .ok ⟨.literal (.string s) (Literal.quote s q), .ofText [] (Literal.quote s q).toList file⟩ ∧
      (q ∉ s.toList → config.jsx = true → 0 < config.maxDepth →
        parse ("<a b=" ++ Literal.quote s q ++ " />") config file = .ok (assigning s (Literal.quote s q) file)) :=
  ⟨quoteParses mark s config file, fun free allowed room => assignedQuoteParses mark free allowed room file⟩

theorem quotedReadsBackEscaped : ('"' = '"' ∨ '"' = '\'') ∧ '"' ∉ "\\'\n\u20288".toList ∧
    parse "\"\\\\'\\n\\u20288\"" {} none =
      .ok ⟨.literal (.string "\\'\n\u20288") "\"\\\\'\\n\\u20288\"", .origin, ⟨0, 14, some 14, 14⟩, none⟩ ∧
    parse "<a b=\"\\\\'\\n\\u20288\" />" {} none = .ok (assigning "\\'\n\u20288" "\"\\\\'\\n\\u20288\"" none) := by
  have written : Literal.quote "\\'\n\u20288" '"' = "\"\\\\'\\n\\u20288\"" := by decide
  have free : '"' ∉ "\\'\n\u20288".toList := by decide
  have both := quotedReadsBack (.inl rfl) "\\'\n\u20288" {} none
  rw [written] at both
  exact ⟨.inl rfl, free, both.1, both.2 free rfl (by decide)⟩

end Grammar

end JsxTree
