import JsxTree.Grammar.Construct
import JsxTree.Proofs.Numerals
import JsxTree.Proofs.Sessions
import JsxTree.Proofs.Standing

/-! Numbers as tokens. Whatever calls a scanner gets, a number that it answers with is a numeral once the separators are left
out: it denotes something, or is marked with a radix that its digits do not fit. -/
namespace JsxTree

open Lexeme Literal

section Tokens

variable {cs rest : List Char} {c : Char}

theorem bareAppend (cs ds : List Char) : bare (cs ++ ds) = bare cs ++ bare ds := List.filter_append _ _

theorem bareCons (other : c ≠ '_') (cs : List Char) : bare (c :: cs) = c :: bare cs :=
  List.filter_cons_of_pos (by simpa using other)

theorem bareDigits (all : ∀ c ∈ cs, isDecimalPart c = true) : Digits 10 (bare cs) := by
  rw [decimalDigits]
  intro c inside
  obtain ⟨within, other⟩ := List.mem_filter.mp inside
  have part := all c within
  simp only [isDecimalPart, Bool.or_eq_true, beq_iff_eq] at part
  exact part.resolve_right (by simpa using other)

theorem bareHex (all : ∀ c ∈ cs, (isHexDigit c || c == '_') = true) : ∀ c ∈ bare cs, c ∈ digits := by
  intro c inside
  obtain ⟨within, other⟩ := List.mem_filter.mp inside
  have part := all c within
  rw [Bool.or_eq_true, beq_iff_eq] at part
  exact ((hexDigitIff c).mp (part.resolve_right (by simpa using other))).1

theorem bareNonempty (digit : c.isDigit = true) : bare (c :: cs) ≠ [] := by
  have other : c ≠ '_' := fun same => by simp [same] at digit
  rw [bareCons other]
  exact List.cons_ne_nil _ _

theorem splitFractionParts (cs : List Char) : (splitFraction cs).1 = [] ∨
    ∃ es, cs = '.' :: es ∧ (splitFraction cs).1 = '.' :: es.takeWhile isDecimalPart := by
  unfold splitFraction
  split
  · exact .inr ⟨_, rfl, rfl⟩
  · exact .inl rfl

theorem splitSignParts (cs : List Char) : (splitSign cs).1 = [] ∨ (splitSign cs).1 = ['+'] ∨ (splitSign cs).1 = ['-'] := by
  unfold splitSign
  split
  · exact .inl rfl
  · split
    · rename_i sign
      rw [Bool.or_eq_true, beq_iff_eq, beq_iff_eq] at sign
      obtain rfl | rfl := sign <;> simp
    · exact .inl rfl

theorem exponentScales (cs : List Char) : ∃ k, Exponent (bare (splitExponent cs).1) k := by
  cases cs with
  | nil => exact ⟨0, .absent⟩
  | cons e cs =>
      simp only [splitExponent]
      split
      · rename_i marked
        rw [Bool.and_eq_true, Bool.or_eq_true, beq_iff_eq, beq_iff_eq] at marked
        obtain ⟨mark, first⟩ := marked
        have digits := bareDigits (ofTakeWhile isDecimalPart (splitSign cs).2)
        have some : bare ((splitSign cs).2.takeWhile isDecimalPart) ≠ [] := by
          cases behind : (splitSign cs).2 with
          | nil => simp [behind] at first
          | cons d ds =>
              have digit : d.isDigit = true := by simpa [behind] using first
              rw [List.takeWhile_cons_of_pos (digitDecimal digit)]
              exact bareNonempty digit
        have own : e ≠ '_' := by obtain rfl | rfl := mark <;> decide
        rw [List.cons_append, bareCons own, bareAppend]
        obtain sign | sign | sign := splitSignParts cs
        all_goals rw [sign]
        · exact ⟨_, .bare mark some digits⟩
        · exact ⟨_, .plus mark some digits⟩
        · exact ⟨_, .minus mark some digits⟩
      · exact ⟨0, .absent⟩

theorem startsParts (starts : startsNumber cs = true) :
    (∃ c rest, cs = c :: rest ∧ c.isDigit = true) ∨ ∃ d rest, cs = '.' :: d :: rest ∧ d.isDigit = true := by
  unfold startsNumber at starts
  split at starts
  · exact .inr ⟨_, _, rfl, starts⟩
  · exact .inl ⟨_, _, rfl, starts⟩
  · cases starts

theorem decimalMantissa (starts : startsNumber cs = true) :
    ∃ v, Mantissa (bare (cs.takeWhile isDecimalPart) ++ bare (splitFraction (cs.dropWhile isDecimalPart)).1) v := by
  have whole := bareDigits (ofTakeWhile isDecimalPart cs)
  obtain ⟨c, rest, rfl, digit⟩ | ⟨d, rest, rfl, digit⟩ := startsParts starts
  · have some : bare ((c :: rest).takeWhile isDecimalPart) ≠ [] := by
      rw [List.takeWhile_cons_of_pos (digitDecimal digit)]
      exact bareNonempty digit
    obtain none | ⟨es, -, point⟩ := splitFractionParts ((c :: rest).dropWhile isDecimalPart)
    · rw [none, show bare [] = [] from rfl, List.append_nil]
      exact ⟨_, .whole some whole⟩
    · rw [point, bareCons (by decide)]
      exact ⟨_, .point (List.append_ne_nil_of_left_ne_nil some _) whole (bareDigits (ofTakeWhile isDecimalPart es))⟩
  · have some : bare ((d :: rest).takeWhile isDecimalPart) ≠ [] := by
      rw [List.takeWhile_cons_of_pos (digitDecimal digit)]
      exact bareNonempty digit
    have point : isDecimalPart '.' = false := by decide
    rw [List.takeWhile_cons_of_neg (by simp [point]), List.dropWhile_cons_of_neg (by simp [point]), splitFraction,
      bareCons (by decide)]
    exact ⟨_, .point some (List.forall_mem_nil _) (bareDigits (ofTakeWhile isDecimalPart (d :: rest)))⟩

theorem decimalAmounts (starts : startsNumber cs = true) : ∃ v, Amounts (bare (splitDecimal cs).1) v := by
  obtain ⟨v, mantissa⟩ := decimalMantissa starts
  obtain ⟨k, exponent⟩ := exponentScales (splitFraction (cs.dropWhile isDecimalPart)).2
  have amounts := Amounts.decimal mantissa exponent
  rw [← bareAppend, ← bareAppend] at amounts
  exact ⟨_, amounts⟩

theorem numberAmounts (starts : startsNumber cs = true) :
    IllPrefixed (bare (splitNumber cs).1) ∨ ∃ v, Amounts (bare (splitNumber cs).1) v := by
  unfold splitNumber
  split
  · rename_i mark es
    split
    · rename_i isMark
      obtain ⟨base, marked⟩ : ∃ base, (mark, base) ∈ radixMarks := by
        simp only [isRadixMark, Bool.or_eq_true, beq_iff_eq] at isMark
        obtain ((((rfl | rfl) | rfl) | rfl) | rfl) | rfl := isMark
        all_goals simp [radixMarks]
      have other : mark ≠ '_' := by
        rintro rfl
        exact absurd isMark (by decide)
      rw [bareCons (by decide), bareCons other]
      have hex := bareHex (ofTakeWhile (fun c => isHexDigit c || c == '_') es)
      generalize bare (es.takeWhile fun c => isHexDigit c || c == '_') = ds at *
      by_cases ill : ds = [] ∨ ∃ d ∈ ds, base ≤ digitValue d
      · exact .inl ⟨base, ds, ⟨mark, marked, rfl⟩, ill⟩
      · rw [not_or, not_exists] at ill
        refine .inr ⟨_, .radix marked ill.1 fun d inside => ⟨hex d inside, ?_⟩⟩
        exact Nat.lt_of_not_le fun large => ill.2 d ⟨inside, large⟩
    · exact .inr (decimalAmounts starts)
  · exact .inr (decimalAmounts starts)

def Readable (k : Token.Kind) : Prop :=
  ∀ raw, k = .numericLiteral raw → IllPrefixed (bare raw.toList) ∨ ∃ v, Amounts (bare raw.toList) v

theorem nextReadable {m : Mode} {l : Lexeme} (h : next? m cs = some l) : Readable l.kind := by
  intro raw kind
  obtain bad | ⟨f, es, -, -, rfl⟩ | ⟨-, starts, rfl⟩ | ⟨q, es, -, -, rfl⟩ | ⟨f, es, -, rfl⟩ := nextCases h
  · rw [kind] at bad
    cases bad
  · have isWord := wordIsWord m (String.ofList (word m f es).raw)
    rw [show wordKind m (String.ofList (word m f es).raw) = _ from kind] at isWord
    cases isWord
  · have amounts := numberAmounts starts
    simp only [Lexeme.number] at kind
    split at kind
    · cases kind
    · cases kind
      rwa [String.toList_ofList]
  · obtain bad | same := quotedKind m q es
    · rw [kind] at bad
      cases bad
    · rw [kind] at same
      cases same
  · obtain bad | ⟨o, -, same⟩ := punctuatorKind m f es
    · rw [kind] at bad
      cases bad
    · rw [same] at kind
      cases kind

end Tokens

section Answers

structure Lexical (P : Token.Kind → Prop) : Prop where
  lexed {m : Mode} {cs : List Char} {l : Lexeme} (found : next? m cs = some l) : P l.kind
  text (raw : String) : P (.jsxText raw)

theorem readableLexical : Lexical Readable := ⟨nextReadable, fun _ _ other => by cases other⟩

def Scanner.Holds (P : Token.Kind → Prop) (s : Scanner) : Prop := ∀ a ∈ s.ahead, P a.token.kind

variable {P : Token.Kind → Prop} {s s' : Scanner}

namespace Scanner

theorem Holds.foresees (lexical : Lexical P) (h : s.Holds P) (more : Foresees s s') : s'.Holds P := by
  induction more with
  | refl => exact h
  | @more s' _ ih =>
      rw [readAheadOf]
      intro a inside
      obtain already | new := List.mem_append.mp inside
      · exact ih a already
      · have found := Option.mem_toList.mp new
        simp only [lex?, Option.map_eq_some_iff] at found
        obtain ⟨l, lexed, rfl⟩ := found
        exact lexical.lexed lexed

def Gives (P : Token.Kind → Prop) (r : Option Token × Scanner) : Prop := r.2.Holds P ∧ ∀ t ∈ r.1, P t.kind

theorem Holds.nth (h : s.Holds P) (i : Nat) : ∀ t ∈ s.ahead[i]?.map (·.token), P t.kind := by
  intro t same
  obtain ⟨a, found, rfl⟩ := Option.map_eq_some_iff.mp same
  exact h a (List.mem_of_getElem? found)

theorem Holds.current (lexical : Lexical P) (h : s.Holds P) : Gives P s.current := by
  have filled := h.foresees lexical (fillForesees 1 s)
  exact ⟨filled, filled.nth 0⟩

theorem Holds.peek (lexical : Lexical P) (h : s.Holds P) : Gives P s.peek := by
  have filled := h.foresees lexical (fillForesees 2 s)
  exact ⟨filled, filled.nth 1⟩

theorem Holds.advance (lexical : Lexical P) (h : s.Holds P) : Gives P s.advance := by
  have filled := h.foresees lexical (fillForesees 1 s)
  simp only [Scanner.advance]
  cases ahead : (s.fill 1).ahead with
  | nil => exact ⟨filled, fun _ no => by cases no⟩
  | cons a as =>
      obtain ⟨first, others⟩ := List.forall_mem_cons.mp (show ∀ b ∈ a :: as, P b.token.kind from ahead ▸ filled)
      exact ⟨others, fun t same => Option.some.inj same ▸ first⟩

theorem Holds.consume (lexical : Lexical P) (h : s.Holds P) (ps : List String) : Gives P (s.consume ps) := by
  have current := (h.current lexical).1
  simp only [Scanner.consume]
  split
  · exact current.advance lexical
  · exact ⟨current, fun _ no => by cases no⟩

theorem Holds.readText (lexical : Lexical P) (h : s.Holds P) : Gives P s.readText := by
  simp only [Scanner.readText]
  cases found : Lexeme.jsxText? s.cursor.rest with
  | none => exact ⟨h, fun _ no => by cases no⟩
  | some l =>
      have own : P l.kind := by
        rw [jsxTextKind found]
        exact lexical.text _
      exact ⟨List.forall_mem_singleton.mpr own, fun t same => Option.some.inj same ▸ own⟩

theorem Holds.setMode (h : s.Holds P) (m : Mode) : (s.setMode m).Holds P := by
  unfold Scanner.setMode
  split
  · exact h
  · exact List.forall_mem_nil _

theorem Holds.skipTrivia (h : s.Holds P) (required : Bool) : (s.skipTrivia required).2.Holds P := by
  obtain same | moved := skipTriviaSame required s
  · rw [same]
    exact h
  · rw [moved]
    exact h

end Scanner

variable {session : Session Scanner}

theorem heldAsk (lexical : Lexical P) (h : session.scanner.Holds P) (call : Call) :
    (∀ t, (Scanner.ask session call).1 = .token (some t) → P t.kind) ∧ (Scanner.ask session call).2.scanner.Holds P := by
  have gives {r : Option Token × Scanner} (given : Scanner.Gives P r) :
      (∀ t, Answer.token r.1 = .token (some t) → P t.kind) ∧ r.2.Holds P :=
    ⟨fun t same => given.2 t (Answer.token.inj same), given.1⟩
  cases call with
  | current => exact gives (h.current lexical)
  | peek => exact gives (h.peek lexical)
  | advance => exact gives (h.advance lexical)
  | consume ps => exact gives (h.consume lexical ps)
  | readText => exact gives (h.readText lexical)
  | atEnd => exact ⟨fun _ no => (by cases no), (h.current lexical).1⟩
  | setMode m => exact ⟨fun _ no => (by cases no), h.setMode m⟩
  | skipTrivia required => exact ⟨fun _ no => (by cases no), h.skipTrivia required⟩
  | lastEnd | checkpoint => exact ⟨fun _ no => (by cases no), h⟩
  | rewind i =>
      simp only [Scanner.ask]
      cases session.marks[i]? with
      | none => exact ⟨fun _ no => (by cases no), h⟩
      | some mark => exact ⟨fun _ no => (by cases no), List.forall_mem_nil _⟩

theorem heldRun (lexical : Lexical P) (h : session.scanner.Holds P) (calls : List Call) {t : Token}
    (answered : .token (some t) ∈ (Session.run Scanner.ask calls session).1) : P t.kind := by
  induction calls generalizing session with
  | nil => cases answered
  | cons call calls ih =>
      obtain ⟨own, kept⟩ := heldAsk lexical h call
      rcases List.mem_cons.mp answered with first | later
      · exact own t first.symm
      · exact ih kept later

end Answers

/-- Of every number that a scanner answers with, after whatever calls: its digits do not fit the radix that it is marked with,
and it has no value, or else it denotes something. What it denotes is rounded to the nearest number, but with a radix only
below 64 bits; from there on there is no value. -/
theorem numbersRounded {source : String} {file : Option String} {calls : List Call} {t : Token} {raw : String}
    (answered : .token (some t) ∈ (Session.run Scanner.ask calls (Scanner.session source file)).1)
    (kind : t.kind = .numericLiteral raw) : ∃ x, Grammar.literalValue? t.kind = some (.number x) ∧
    (IllPrefixed (bare raw.toList) → x.isNaN = true) ∧
    (¬IllPrefixed (bare raw.toList) → ∃ v, Amounts (bare raw.toList) v) ∧
    ∀ v, Amounts (bare raw.toList) v → (Wide (bare raw.toList) v → x.isNaN = true) ∧
      (¬Wide (bare raw.toList) v → Binary64.Rounds v x) := by
  have begun : (Scanner.session source file).scanner.Holds Readable := List.forall_mem_nil _
  have readable := heldRun readableLexical begun calls answered
  refine ⟨numeral raw, by rw [kind]; rfl, numeralIll, fun fits => ?_, fun v amounts => numeralRounds amounts⟩
  exact (readable raw kind).resolve_left fits

theorem numbersRoundedDecimal :
    let t := Token.mk (.numericLiteral "1_0.5e-1") [] ⟨.origin, ⟨0, 8, some 8, 8⟩, none⟩
    .token (some t) ∈ (Session.run Scanner.ask [.peek, .advance] (Scanner.session "1_0.5e-1" none)).1 ∧
    ∃ x, Grammar.literalValue? t.kind = some (.number x) ∧ Binary64.Rounds (21 / 20) x := by
  intro t
  have answered : .token (some t) ∈ (Session.run Scanner.ask [.peek, .advance] (Scanner.session "1_0.5e-1" none)).1 := by
    decide +kernel
  obtain ⟨x, value, -, -, rounds⟩ := numbersRounded answered rfl
  have text : bare "1_0.5e-1".toList = ['1', '0', '.', '5'] ++ ['e', '-', '1'] := by decide
  have decimals {ds : List Char} (all : ds.all Char.isDigit = true) : Digits 10 ds := decimalDigits.mpr (List.all_eq_true.mp all)
  have mantissa : Mantissa ['1', '0', '.', '5'] (10 + 5 / 10 ^ 1) :=
    @Mantissa.point ['1', '0'] ['5'] (by decide) (decimals rfl) (decimals rfl)
  have exponent : Exponent ['e', '-', '1'] (-1) := @Exponent.minus 'e' ['1'] (.inl rfl) (by decide) (decimals rfl)
  have amounts : Amounts (bare "1_0.5e-1".toList) ((10 + 5 / 10 ^ 1) * 10 ^ (-1 : ℤ)) := text ▸ .decimal mantissa exponent
  have same : ((10 + 5 / 10 ^ 1) * 10 ^ (-1 : ℤ) : ℚ) = 21 / 20 := by norm_num
  rw [same] at amounts
  refine ⟨answered, x, value, (rounds _ amounts).2 fun wide => ?_⟩
  exact absurd wide.2 (by norm_num)

theorem wideNumberLost :
    let raw := "0x10000000000000000"
    let t := Token.mk (.numericLiteral raw) [] ⟨.origin, ⟨0, 19, some 19, 19⟩, none⟩
    .token (some t) ∈ (Session.run Scanner.ask [.advance] (Scanner.session raw none)).1 ∧
    ¬IllPrefixed (bare raw.toList) ∧ Amounts (bare raw.toList) (2 ^ 64) ∧
    ∃ x, Grammar.literalValue? t.kind = some (.number x) ∧ x.isNaN = true := by
  intro raw t
  have answered : .token (some t) ∈ (Session.run Scanner.ask [.advance] (Scanner.session raw none)).1 := by decide +kernel
  have text : bare raw.toList = '0' :: 'x' :: "10000000000000000".toList := by decide
  have digits : Digits 16 "10000000000000000".toList := hexDigits.mpr (List.all_eq_true.mp rfl)
  have amounts : Amounts (bare raw.toList) (2 ^ 64) := by
    have known := @Amounts.radix 'x' 16 _ (by decide) (by decide) digits
    have size : number 16 "10000000000000000".toList = 2 ^ 64 := by decide
    rw [size, ← text] at known
    exact_mod_cast known
  refine ⟨answered, ?_, amounts, numeral raw, rfl, (numeralRounds amounts).1 ⟨?_, le_rfl⟩⟩
  · rintro ⟨base, ds, ⟨mark, marked, same⟩, ill⟩
    rw [text] at same
    cases same
    obtain rfl : base = 16 := by simpa [radixMarks] using marked
    obtain none | ⟨d, inside, large⟩ := ill
    · cases none
    · exact absurd large (Nat.not_le_of_lt (digits d inside).2)
  · exact ⟨16, _, 'x', by decide, text⟩

end JsxTree
