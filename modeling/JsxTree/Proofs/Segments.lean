import JsxTree.Proofs.Escapes

/-! How string literals are cut at their escapes. The lexer goes past one character behind a backslash, or past a carriage
return and line feed; the decoder reads as much as the escape is made of. Both find the escapes at the same places, and
what either does is what its own cut says: where a literal closes, and which text it stands for. -/
namespace JsxTree.Literal

inductive Segment where
  | run (cs : List Char)
  | escape (cs : List Char)
  deriving DecidableEq, Repr

def Segment.raw : Segment → List Char
  | run cs | escape cs => cs

/-- A text from left to right, plain up to the next backslash. How many characters behind it belong to the escape is told by
the text there. -/
def segments (taken : List Char → Nat) (cs : List Char) : List Segment :=
  match _slash : cs.dropWhile (· ≠ '\\') with
  | [] => [.run cs]
  | slash :: after =>
      .run (cs.takeWhile (· ≠ '\\')) :: .escape (slash :: after.take (taken after)) ::
        segments taken (after.drop (taken after))
termination_by cs.length
decreasing_by
  have shorter := (List.dropWhile_suffix (· ≠ '\\') (l := cs)).length_le
  simp only [_slash, List.length_cons, List.length_drop] at shorter ⊢
  omega

def passed : List Char → Nat
  | [] => 0
  | '\r' :: '\n' :: _ => 2
  | _ :: _ => 1

def Escape.taken (cs : List Char) : Nat := cs.length - (Escape.split cs).2.length

def isDigitPart (c : Char) : Bool := Lexeme.isHexDigit c || c == '{' || c == '}'

def escapes : Nat → List Segment → List (Nat × List Char)
  | _, [] => []
  | n, .run cs :: more => escapes (n + cs.length) more
  | n, .escape cs :: more => (n, cs) :: escapes (n + cs.length) more

/-- Neither the quote nor a line break stands in a run, and no backslash is without anything to escape. -/
def Segment.Clear (q : Char) : Segment → Prop
  | run cs => ∀ c ∈ cs, c ≠ q ∧ Trivia.endsLine c = false
  | escape cs => cs ≠ ['\\']

section Cuts

variable {taken : List Char → Nat} {run after cs : List Char}

theorem segmentsRun (free : '\\' ∉ cs) : segments taken cs = [.run cs] := by
  have plain : ∀ c ∈ cs, decide (c ≠ '\\') = true := fun c inside => decide_eq_true fun same => free (same ▸ inside)
  rw [segments]
  split
  · rfl
  · rename_i found
    rw [List.dropWhile_eq_nil_iff.mpr plain] at found
    cases found

theorem segmentsEscape (free : '\\' ∉ run) : segments taken (run ++ '\\' :: after) =
    .run run :: .escape ('\\' :: after.take (taken after)) :: segments taken (after.drop (taken after)) := by
  have plain : ∀ c ∈ run, decide (c ≠ '\\') = true := fun c inside => decide_eq_true fun same => free (same ▸ inside)
  have stop : Lexeme.Avoids (fun c => decide (c ≠ '\\')) ('\\' :: after) := Lexeme.avoidsCons (by decide)
  rw [segments]
  split
  · rename_i found
    rw [Lexeme.dropWhileThen plain stop] at found
    cases found
  · rename_i found
    rw [Lexeme.dropWhileThen plain stop] at found
    cases found
    rw [Lexeme.takeWhileThen plain stop]

theorem segmentsBackslash (taken : List Char → Nat) (cs : List Char) : segments taken ('\\' :: cs) =
    .run [] :: .escape ('\\' :: cs.take (taken cs)) :: segments taken (cs.drop (taken cs)) := segmentsEscape List.not_mem_nil

theorem segmentsFront (taken : List Char → Nat) (cs : List Char) : ∃ run rest, segments taken cs = .run run :: rest ∧
    ∀ front, '\\' ∉ front → segments taken (front ++ cs) = .run (front ++ run) :: rest := by
  by_cases escaped : '\\' ∈ cs
  · obtain ⟨run, after, rfl, free⟩ := List.eq_append_cons_of_mem escaped
    refine ⟨run, _, segmentsEscape free, fun front plain => ?_⟩
    rw [← List.append_assoc]
    exact segmentsEscape fun inside => (List.mem_append.mp inside).elim plain free
  · refine ⟨cs, [], segmentsRun escaped, fun front plain => ?_⟩
    exact segmentsRun fun inside => (List.mem_append.mp inside).elim plain escaped

@[elab_as_elim]
theorem segmentsInduct (taken : List Char → Nat) {motive : List Char → Prop} (plain : ∀ cs, '\\' ∉ cs → motive cs)
    (escaped : ∀ run after, '\\' ∉ run → motive (after.drop (taken after)) → motive (run ++ '\\' :: after)) (cs : List Char) :
    motive cs := by
  induction length : cs.length using Nat.strong_induction_on generalizing cs with
  | _ size ih =>
    by_cases inside : '\\' ∈ cs
    · obtain ⟨run, after, rfl, free⟩ := List.eq_append_cons_of_mem inside
      refine escaped run after free (ih _ ?_ _ rfl)
      rw [← length]
      simp only [List.length_append, List.length_cons, List.length_drop]
      omega
    · exact plain cs inside

theorem segmentsJoin (taken : List Char → Nat) (cs : List Char) : (segments taken cs).flatMap Segment.raw = cs := by
  induction cs using segmentsInduct taken with
  | plain cs free =>
      rw [segmentsRun free, List.flatMap_singleton]
      rfl
  | escaped run after free ih =>
      rw [segmentsEscape free, List.flatMap_cons, List.flatMap_cons, ih]
      simp only [Segment.raw, List.cons_append, List.take_append_drop]

end Cuts

section Reading

variable {cs : List Char} {c : Char}

theorem passedOne (alone : ∀ more, c = '\r' → cs = '\n' :: more → False) : passed (c :: cs) = 1 := by
  rw [passed]
  exact alone

theorem digitsPart {base : Nat} {ds : List Char} (small : base ≤ 16) (h : Digits base ds) :
    ∀ d ∈ ds, isDigitPart d = true := by
  intro d inside
  have hex : Lexeme.isHexDigit d = true := (hexDigitIff d).mpr ⟨(h d inside).1, (h d inside).2.trans_le small⟩
  rw [isDigitPart, hex]
  rfl

theorem splitPassed (cs : List Char) : ∃ more, cs.drop (passed cs) = more ++ (Escape.split cs).2 ∧
    ∀ c ∈ more, isDigitPart c = true := by
  have nothing {rest : List Char} : ∃ more, rest = more ++ rest ∧ ∀ c ∈ more, isDigitPart c = true :=
    ⟨[], rfl, List.forall_mem_nil _⟩
  have lettered {most : Nat} {e : Escape} {cs : List Char} : ∃ more, cs = more ++ ((Escape.hex most cs).getD (e, cs)).2 ∧
      ∀ c ∈ more, isDigitPart c = true := by
    cases read : Escape.hex most cs with
    | none => exact nothing
    | some found =>
        obtain ⟨ds, -, -, hex, whole, -⟩ := hexParts read
        exact ⟨ds, whole, digitsPart (Nat.le_refl 16) hex⟩
  -- The lexer passes one character, or a carriage return with its line feed; the decoder may take digits and braces more.
  fun_cases Escape.split cs with
  | case1 => exact nothing
  | case2 cs =>
      cases read : Escape.braced cs with
      | none => exact lettered
      | some found =>
          obtain ⟨ds, -, hex, whole, -⟩ := bracedParts read
          have parts : ∀ d ∈ '{' :: (ds ++ ['}']), isDigitPart d = true :=
            List.forall_mem_cons.mpr ⟨by decide, List.forall_mem_append.mpr
              ⟨digitsPart (Nat.le_refl 16) hex, List.forall_mem_singleton.mpr (by decide)⟩⟩
          exact ⟨_, whole.trans (by simp), parts⟩
  | case3 cs => exact lettered
  | case4 | case5 | case6 | case7 | case8 | case9 | case10 => exact nothing
  | case11 c cs _ _ _ _ _ _ _ _ alone octals =>
      rw [passedOne fun more back same => alone more back same, octalRead octals]
      have whole := octalTakenBehind c cs
      have length := (octalTakenLength c cs).1
      have inside := digitsPart (by decide) (octalTakenDigits c cs)
      cases taken : octalTaken c cs with
      | nil =>
          rw [taken, octalLength, octalFrontCons octals] at length
          simp only [List.length_nil, List.length_cons] at length
          split at length <;> omega
      | cons d ds =>
          rw [taken] at whole inside
          exact ⟨ds, (List.tail_eq_of_cons_eq whole).symm, (List.forall_mem_cons.mp inside).2⟩
  | case12 c cs _ _ _ _ _ _ _ _ alone =>
      rw [passedOne fun more back same => alone more back same]
      exact nothing
  | case13 c cs _ _ _ _ _ _ _ _ alone =>
      rw [passedOne fun more back same => alone more back same]
      exact nothing

end Reading

section Alignment

variable {q : Char} {cs : List Char} {n : Nat}

def Extends (short long : Nat × List Char) : Prop :=
  short.1 = long.1 ∧ ∃ more, long.2 = short.2 ++ more ∧ ∀ c ∈ more, isDigitPart c = true

theorem extended {shorts longs : List (Nat × List Char)} {short : Nat × List Char} (all : List.Forall₂ Extends shorts longs)
    (inside : short ∈ shorts) : ∃ long ∈ longs, Extends short long := by
  obtain ⟨i, bound, rfl⟩ := List.getElem_of_mem inside
  have bound' : i < longs.length := all.length_eq ▸ bound
  exact ⟨longs[i], List.getElem_mem bound', all.get bound bound'⟩

theorem partPlain {more : List Char} (parts : ∀ c ∈ more, isDigitPart c = true) : '\\' ∉ more := fun inside => by
  cases parts _ inside

theorem takenFront {front : List Char} (whole : cs = front ++ (Escape.split cs).2) :
    cs.take (Escape.taken cs) = front ∧ cs.drop (Escape.taken cs) = (Escape.split cs).2 := by
  have length := congrArg List.length whole
  rw [List.length_append] at length
  have size : Escape.taken cs = front.length := by
    rw [Escape.taken]
    omega
  rw [size]
  exact ⟨(congrArg (List.take _) whole).trans List.take_left, (congrArg (List.drop _) whole).trans List.drop_left⟩

theorem takenPassed (cs : List Char) : ∃ more, cs.take (Escape.taken cs) = cs.take (passed cs) ++ more ∧
    cs.drop (passed cs) = more ++ cs.drop (Escape.taken cs) ∧ ∀ c ∈ more, isDigitPart c = true := by
  obtain ⟨more, behind, parts⟩ := splitPassed cs
  obtain ⟨taken, dropped⟩ := @takenFront cs (cs.take (passed cs) ++ more)
    (by rw [List.append_assoc, ← behind, List.take_append_drop])
  exact ⟨more, taken, behind.trans (congrArg (more ++ ·) dropped.symm), parts⟩

theorem segmentsAligned (q : Char) (cs : List Char) (n : Nat) :
    List.Forall₂ Extends (escapes n (segments passed cs)) (escapes n (segments Escape.taken cs)) ∧
      ((∀ s ∈ segments passed cs, s.Clear q) → ∀ s ∈ segments Escape.taken cs, s.Clear q) := by
  induction cs using segmentsInduct Escape.taken generalizing n with
  | plain cs free =>
      rw [segmentsRun free, segmentsRun free]
      exact ⟨.nil, id⟩
  | escaped run after free ih =>
      obtain ⟨more, taken, behind, parts⟩ := takenPassed after
      obtain ⟨first, rest, cut, moved⟩ := segmentsFront passed (after.drop (Escape.taken after))
      -- What the decoder has taken already stands in front of the lexer's next run.
      have lagging := moved more (partPlain parts)
      obtain ⟨aligned, clear⟩ := ih (n + run.length + ('\\' :: after.take (Escape.taken after)).length)
      rw [segmentsEscape free, segmentsEscape free, behind, lagging]
      rw [cut] at aligned clear
      refine ⟨.cons ⟨rfl, more, by rw [taken]; rfl, parts⟩ ?_, fun all => ?_⟩
      · have farther : n + run.length + ('\\' :: after.take (passed after)).length + (more ++ first).length =
            n + run.length + ('\\' :: after.take (Escape.taken after)).length + first.length := by
          rw [taken]
          simp only [List.length_cons, List.length_append]
          omega
        rw [escapes, farther]
        exact aligned
      · simp only [List.forall_mem_cons] at all clear ⊢
        obtain ⟨own, escape, next, others⟩ := all
        refine ⟨own, ?_, clear ⟨fun c inside => next c (List.mem_append_right _ inside), others⟩⟩
        intro bare
        rw [taken] at bare
        have none := List.append_eq_nil_iff.mp (List.tail_eq_of_cons_eq bare)
        exact escape (by rw [none.1])

end Alignment

section Lexing

open Lexeme

variable {q : Char} {cs : List Char}

theorem closedClear (closed : (splitEscaped q cs).closed = true) :
    ∃ inner, (splitEscaped q cs).raw = inner ++ [q] ∧ ∀ s ∈ segments passed inner, s.Clear q := by
  fun_induction splitEscaped q cs with
  | case1 => cases closed
  | case2 cs ih =>
      obtain ⟨inner, raw, clear⟩ := ih closed
      refine ⟨'\\' :: '\r' :: '\n' :: inner, by simp only [Body.cons, raw, List.cons_append], ?_⟩
      rw [segmentsBackslash]
      exact List.forall_mem_cons.mpr ⟨List.forall_mem_nil _, List.forall_mem_cons.mpr ⟨by simp [Segment.Clear, passed], clear⟩⟩
  | case3 c cs other ih =>
      obtain ⟨inner, raw, clear⟩ := ih closed
      have splits := splitEscapedSplits q cs
      -- Were a line feed next, the lexer would have taken it along with the carriage return.
      have one : passed (c :: inner) = 1 := passedOne fun more back feed => by
        rw [raw, feed] at splits
        exact other _ back splits
      refine ⟨'\\' :: c :: inner, by simp only [Body.cons, raw, List.cons_append], ?_⟩
      rw [segmentsBackslash, one]
      exact List.forall_mem_cons.mpr ⟨List.forall_mem_nil _, List.forall_mem_cons.mpr ⟨by simp [Segment.Clear], clear⟩⟩
  | case4 c cs first second close =>
      refine ⟨[], by rw [beq_iff_eq.mp close]; rfl, ?_⟩
      rw [segmentsRun List.not_mem_nil]
      exact List.forall_mem_singleton.mpr (List.forall_mem_nil _)
  | case5 => cases closed
  | case6 c cs first second open? line ih =>
      obtain ⟨inner, raw, clear⟩ := ih closed
      obtain ⟨run, rest, cut, moved⟩ := segmentsFront passed inner
      have plain : '\\' ∉ [c] := by
        intro inside
        obtain rfl := List.mem_singleton.mp inside
        cases cs with
        | nil => cases closed
        | cons e es => exact second e es rfl rfl
      refine ⟨c :: inner, by simp only [Body.cons, raw, List.cons_append], ?_⟩
      rw [← List.singleton_append, moved _ plain]
      rw [cut] at clear
      obtain ⟨own, others⟩ := List.forall_mem_cons.mp clear
      have free : c ≠ q ∧ Trivia.endsLine c = false := ⟨by simpa using open?, Bool.eq_false_iff.mpr line⟩
      exact List.forall_mem_cons.mpr ⟨List.forall_mem_cons.mpr ⟨free, own⟩, others⟩

theorem clearRun {run : List Char} (plain : ∀ c ∈ run, c ≠ '\\') (clear : (Segment.run run).Clear q) (cs : List Char) :
    splitEscaped q (run ++ cs) = { splitEscaped q cs with raw := run ++ (splitEscaped q cs).raw } := by
  induction run with
  | nil => rfl
  | cons c run ih =>
      obtain ⟨slash, plain⟩ := List.forall_mem_cons.mp plain
      obtain ⟨⟨other, line⟩, clear⟩ := List.forall_mem_cons.mp clear
      rw [List.cons_append, splitEscapedPlain slash, if_neg (by simpa using other), if_neg (by simp [line]), ih plain clear]
      rfl

theorem clearClosed (mark : q = '"' ∨ q = '\'') {inner rest : List Char} (clear : ∀ s ∈ segments passed inner, s.Clear q) :
    splitEscaped q (inner ++ q :: rest) = ⟨inner ++ [q], rest, true⟩ := by
  have slash : q ≠ '\\' := by obtain rfl | rfl := mark <;> decide
  have feed : q ≠ '\n' := by obtain rfl | rfl := mark <;> decide
  have close : splitEscaped q (q :: rest) = ⟨[q], rest, true⟩ := by
    rw [splitEscapedPlain slash, if_pos (beq_self_eq_true q)]
  induction inner using segmentsInduct passed with
  | plain inner free =>
      have plain : ∀ c ∈ inner, c ≠ '\\' := fun c inside same => free (same ▸ inside)
      rw [segmentsRun free] at clear
      rw [clearRun plain (clear _ List.mem_cons_self), close]
  | escaped run after free ih =>
      have plain : ∀ c ∈ run, c ≠ '\\' := fun c inside same => free (same ▸ inside)
      rw [segmentsEscape free] at clear
      obtain ⟨own, clear⟩ := List.forall_mem_cons.mp clear
      obtain ⟨escape, clear⟩ := List.forall_mem_cons.mp clear
      have closed := ih clear
      rw [List.append_assoc, clearRun plain own]
      -- The text behind the escape closes, and the lexer goes past the escape as a whole.
      have stepped : splitEscaped q (('\\' :: after) ++ q :: rest) = ⟨'\\' :: after ++ [q], rest, true⟩ := by
        fun_cases passed after with
        | case1 => exact (escape rfl).elim
        | case2 more =>
            rw [show ('\r' :: '\n' :: more).drop (passed ('\r' :: '\n' :: more)) = more from rfl] at closed
            simp only [List.cons_append, splitEscaped, closed]
            rfl
        | case3 c more other =>
            rw [passedOne other, List.drop_one, List.tail_cons] at closed
            have kept : ∀ es, c = '\r' → more ++ q :: rest = '\n' :: es → False := by
              intro es back same
              cases more with
              | nil => exact feed (List.cons.inj same).1
              | cons e more => exact other more back (congrArg (· :: more) (List.cons.inj same).1)
            simp only [List.cons_append]
            rw [splitEscaped.eq_3 q c _ kept, closed]
            rfl
      rw [stepped, List.append_assoc]

theorem closedIff (mark : q = '"' ∨ q = '\'') {inner rest : List Char} : splitEscaped q cs = ⟨inner ++ [q], rest, true⟩ ↔
    cs = inner ++ q :: rest ∧ ∀ s ∈ segments passed inner, s.Clear q := by
  constructor
  · intro closed
    obtain ⟨inner', raw, clear⟩ := @closedClear q cs (by rw [closed])
    rw [closed] at raw
    obtain rfl := List.append_cancel_right raw
    have splits := splitEscapedSplits q cs
    rw [closed, List.append_assoc] at splits
    exact ⟨splits, clear⟩
  · rintro ⟨rfl, clear⟩
    exact clearClosed mark clear

theorem escapesHold {ss : List Segment} {i n : Nat} {c : Char} (clear : ∀ s ∈ ss, s.Clear q)
    (here : (ss.flatMap Segment.raw)[i]? = some c) (special : c = q ∨ Trivia.endsLine c = true) :
    ∃ e ∈ escapes n ss, e.1 ≤ n + i ∧ n + i < e.1 + e.2.length := by
  induction ss generalizing i n with
  | nil => cases here
  | cons s ss ih =>
      obtain ⟨own, others⟩ := List.forall_mem_cons.mp clear
      rw [List.flatMap_cons] at here
      have later (beyond : s.raw.length ≤ i) :
          ∃ e ∈ escapes (n + s.raw.length) ss, e.1 ≤ n + i ∧ n + i < e.1 + e.2.length := by
        rw [List.getElem?_append_right beyond] at here
        have found := @ih (i - s.raw.length) (n + s.raw.length) others here
        rwa [show n + s.raw.length + (i - s.raw.length) = n + i by omega] at found
      cases s with
      | run cs =>
          by_cases inside : i < cs.length
          · rw [show (Segment.run cs).raw = cs from rfl, List.getElem?_append_left inside] at here
            obtain ⟨other, plain⟩ := own c (List.mem_of_getElem? here)
            rw [plain] at special
            exact absurd (special.resolve_right Bool.false_ne_true) other
          · exact later (Nat.le_of_not_lt inside)
      | escape cs =>
          by_cases inside : i < cs.length
          · exact ⟨(n, cs), List.mem_cons_self, Nat.le_add_right _ _, Nat.add_lt_add_left inside n⟩
          · obtain ⟨e, found, bounds⟩ := later (Nat.le_of_not_lt inside)
            exact ⟨e, List.mem_cons_of_mem _ found, bounds⟩

end Lexing

section Decoding

open Pattern

variable {pattern : Pattern} {patterns : List Pattern} {cs text rest first second : List Char} {e : Escape}
  {ss : List Segment}

theorem Pattern.Misses.front (misses : pattern.Misses cs) (front : text <+: cs) : pattern.Misses text :=
  fun other e has inside => misses other e has (inside.trans front)

theorem Pattern.First.alone (h : First cs e rest patterns) : ∃ text, cs = text ++ rest ∧ First text e [] patterns := by
  induction h with
  | here takes =>
      obtain ⟨text, whole, has, longest⟩ := takes
      exact ⟨text, whole, .here ⟨text, (List.append_nil text).symm, has, fun other e' has' inside =>
        longest other e' has' (inside.trans ⟨rest, whole.symm⟩)⟩⟩
  | later misses _ ih =>
      obtain ⟨text, whole, more⟩ := ih
      exact ⟨text, whole, .later (misses.front ⟨rest, whole.symm⟩) more⟩

theorem splitTaken (cs : List Char) : Escape.split (cs.take (Escape.taken cs)) = ((Escape.split cs).1, []) ∧
    cs.drop (Escape.taken cs) = (Escape.split cs).2 := by
  obtain ⟨text, whole, alone⟩ := (splitFirst cs).alone
  obtain ⟨taken, behind⟩ := takenFront whole
  rw [taken, behind]
  exact ⟨firstIff.mp alone, rfl⟩

def Escape.value : Escape → List Char
  | .code n => [charAt n]
  | .text cs => cs

def escapeRead (cs : List Char) : Escape := (Escape.split cs.tail).1

def joined? (first second : List Char) : Option Char :=
  match escapeRead first, escapeRead second with
  | .code high, .code low =>
      if isHighSurrogate high && isLowSurrogate low then
        some (charAt (0x10000 + (high - 0xD800) * 0x400 + (low - 0xDC00)))
      else none
  | _, _ => none

def value : List Segment → List Char
  | [] => []
  | .run cs :: more => cs ++ value more
  | .escape first :: .run [] :: .escape second :: more =>
      match joined? first second with
      | some c => c :: value more
      | none => (escapeRead first).value ++ value (.escape second :: more)
  | .escape cs :: more => (escapeRead cs).value ++ value more

theorem valueAlone (alone : ∀ second more, ss = .run [] :: .escape second :: more → joined? first second = none) :
    value (.escape first :: ss) = (escapeRead first).value ++ value ss := by
  by_cases joins : ∃ second more, ss = .run [] :: .escape second :: more
  · obtain ⟨second, more, rfl⟩ := joins
    rw [value.eq_3, alone second more rfl]
    rfl
  · exact value.eq_4 first ss fun second more same => joins ⟨second, more, same⟩

theorem valueJoined {c : Char} {more : List Segment} (joined : joined? first second = some c) :
    value (.escape first :: .run [] :: .escape second :: more) = c :: value more := by
  rw [value, joined]

theorem segmentsSlash (cs : List Char) : segments Escape.taken ('\\' :: cs) =
    .run [] :: .escape ('\\' :: cs.take (Escape.taken cs)) :: segments Escape.taken (Escape.split cs).2 := by
  rw [← (splitTaken cs).2]
  exact segmentsBackslash _ _

theorem segmentsFirst {more : List Segment} (cut : segments Escape.taken cs = .run [] :: .escape second :: more) :
    ∃ behind, cs = '\\' :: behind ∧ second = '\\' :: behind.take (Escape.taken behind) := by
  by_cases escaped : '\\' ∈ cs
  · obtain ⟨run, behind, rfl, free⟩ := List.eq_append_cons_of_mem escaped
    rw [segmentsEscape free] at cut
    simp only [List.cons.injEq, Segment.run.injEq, Segment.escape.injEq] at cut
    obtain ⟨rfl, rfl, -⟩ := cut
    exact ⟨behind, rfl, rfl⟩
  · rw [segmentsRun escaped] at cut
    cases cut

theorem decodeSegments (cs : List Char) : decode cs = value (segments Escape.taken cs) := by
  have read (cs : List Char) : escapeRead ('\\' :: cs.take (Escape.taken cs)) = (Escape.split cs).1 :=
    show (Escape.split (cs.take (Escape.taken cs))).1 = _ by rw [(splitTaken cs).1]
  have decodes := decodeDecodes cs
  generalize decode cs = v at decodes
  induction decodes with
  | done =>
      rw [segmentsRun List.not_mem_nil]
      rfl
  | @plain c cs v plain _ ih =>
      obtain ⟨run, rest, cut, moved⟩ := segmentsFront Escape.taken cs
      rw [cut] at ih
      rw [show c :: cs = [c] ++ cs from rfl, moved [c] (by simpa using plain.symm), ih]
      rfl
  | @text cs text rest v first _ ih =>
      have split := firstIff.mp first
      have single : ∀ second more, segments Escape.taken rest = .run [] :: .escape second :: more →
          joined? ('\\' :: cs.take (Escape.taken cs)) second = none := fun second more _ => by
        simp only [joined?, read, split]
      rw [segmentsSlash, split, value, valueAlone single, read, split, ih]
      rfl
  | @pair cs high behind low rest c v first upper second lower joined _ ih =>
      have split := firstIff.mp first
      have split' := firstIff.mp second
      have together : joined? ('\\' :: cs.take (Escape.taken cs)) ('\\' :: behind.take (Escape.taken behind)) = some c := by
        simp only [joined?, read, split, split', highIff.mpr upper, lowIff.mpr lower, Bool.and_true, if_true]
        exact congrArg some (Char.toNat_inj.mp ((charAtValue (joinedValid upper lower)).trans joined.symm))
      rw [segmentsSlash, split, segmentsSlash, split', value, valueJoined together, ih]
      rfl
  | @code cs n rest c v first alone denotes _ ih =>
      have split := firstIff.mp first
      have single : ∀ second more, segments Escape.taken rest = .run [] :: .escape second :: more →
          joined? ('\\' :: cs.take (Escape.taken cs)) second = none := by
        intro second more cut
        obtain ⟨behind, rfl, rfl⟩ := segmentsFirst cut
        simp only [joined?, read, split]
        cases behindRead : (Escape.split behind).1 with
        | text => rfl
        | code low =>
            refine if_neg fun both => ?_
            rw [Bool.and_eq_true, highIff, lowIff] at both
            exact alone both.1 behind low _ rfl (firstIff.mpr (Prod.ext behindRead rfl)) both.2
      rw [segmentsSlash, split, value, valueAlone single, read, split, ih, ← denotesIff.mp denotes]
      rfl

end Decoding

section Tokens

open Lexeme

variable {file : Option String} {c : Cursor} {a : Scanner.Ahead} {raw : String} {cs : List Char} {l : Lexeme}

theorem scriptQuoted (next : next? .script cs = some l) (kind : l.kind = .stringLiteral raw) :
    ∃ q inner, (q = '"' ∨ q = '\'') ∧ raw.toList = q :: (inner ++ [q]) ∧ ∀ s ∈ segments passed inner, s.Clear q := by
  obtain bad | ⟨f, es, -, -, rfl⟩ | ⟨-, -, rfl⟩ | ⟨q, es, -, mark, rfl⟩ | ⟨f, es, -, rfl⟩ := nextCases next
  · rw [kind] at bad
    cases bad
  · have isWord := wordIsWord .script (String.ofList (Lexeme.word .script f es).raw)
    rw [show wordKind .script (String.ofList (Lexeme.word .script f es).raw) = _ from kind] at isWord
    cases isWord
  · obtain bad | same := numberKind cs
    · rw [kind] at bad
      cases bad
    · rw [kind] at same
      cases same
  · unfold quoted at kind
    simp only [reduceCtorEq, if_false] at kind
    by_cases closed : (splitEscaped q es).closed = true
    · obtain ⟨inner, body, clear⟩ := closedClear closed
      simp only [closed, if_true, body, Token.Kind.stringLiteral.injEq] at kind
      refine ⟨q, inner, by simpa using mark, ?_, clear⟩
      rw [← kind, String.toList_ofList]
    · rw [if_neg closed] at kind
      cases kind
  · obtain bad | ⟨o, -, same⟩ := punctuatorKind .script f es
    · rw [kind] at bad
      cases bad
    · rw [same] at kind
      cases kind

/-- A string literal is cut at its escapes by the decoder as it was by the lexer. Between its quotes, the quote and the line
breaks stand in escapes, and in the same ones for both. -/
theorem literalsCutAlike (found : Scanner.lex? file .script c = some a) (kind : a.token.kind = .stringLiteral raw) :
    ∃ q inner, (q = '"' ∨ q = '\'') ∧ raw.toList = q :: (inner ++ [q]) ∧
      (∀ s ∈ segments Escape.taken inner, s.Clear q) ∧
      List.Forall₂ Extends (escapes 0 (segments passed inner)) (escapes 0 (segments Escape.taken inner)) ∧
      ∀ i e, inner[i]? = some e → (e = q ∨ Trivia.endsLine e = true) →
        ∃ short ∈ escapes 0 (segments passed inner), ∃ long ∈ escapes 0 (segments Escape.taken inner),
          Extends short long ∧ short.1 ≤ i ∧ i < short.1 + short.2.length := by
  obtain ⟨l, next, rfl⟩ := Option.map_eq_some_iff.mp found
  obtain ⟨q, inner, mark, quoted, clear⟩ := scriptQuoted next kind
  obtain ⟨aligned, transfer⟩ := segmentsAligned q inner 0
  refine ⟨q, inner, mark, quoted, transfer clear, aligned, fun i e here special => ?_⟩
  rw [← segmentsJoin passed inner] at here
  obtain ⟨short, inside, low, high⟩ := escapesHold (n := 0) clear here special
  obtain ⟨long, inside', extends'⟩ := extended aligned inside
  rw [Nat.zero_add] at low high
  exact ⟨short, inside, long, inside', extends', low, high⟩

theorem literalsCutAlikeMixed :
    let raw := "\"a\\u\x7b1F600\x7d'\\uD83D\\uDE00\\\"\\07\\\r\n\\\\\""
    ∃ a, Scanner.lex? none .script (.start raw) = some a ∧ a.token.kind = .stringLiteral raw ∧
      ∃ q inner, (q = '"' ∨ q = '\'') ∧ raw.toList = q :: (inner ++ [q]) ∧
        (∀ s ∈ segments Escape.taken inner, s.Clear q) ∧
        List.Forall₂ Extends (escapes 0 (segments passed inner)) (escapes 0 (segments Escape.taken inner)) ∧
        ∀ i e, inner[i]? = some e → (e = q ∨ Trivia.endsLine e = true) →
          ∃ short ∈ escapes 0 (segments passed inner), ∃ long ∈ escapes 0 (segments Escape.taken inner),
            Extends short long ∧ short.1 ≤ i ∧ i < short.1 + short.2.length := by
  intro raw
  have lexed : (Scanner.lex? none .script (.start raw)).map (·.token.kind) = some (.stringLiteral raw) := by decide +kernel
  obtain ⟨a, found, kind⟩ := Option.map_eq_some_iff.mp lexed
  exact ⟨a, found, kind, literalsCutAlike found kind⟩

example :
    let cs := "\\u\x7b1F600\x7d\\\"".toList
    escapes 0 (segments passed cs) = [(0, "\\u".toList), (9, "\\\"".toList)] ∧
      escapes 0 (segments Escape.taken cs) = [(0, "\\u\x7b1F600\x7d".toList), (9, "\\\"".toList)] := by
  decide +kernel

end Tokens

end JsxTree.Literal
