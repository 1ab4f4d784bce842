import JsxTree.Json
import JsxTree.Literal.Escape
import JsxTree.Proofs.Lexemes

/-! What can be told of a value from its text on one line: strings, lists and fields as they are, of
the rest what is written. No text is the front of another one, so long as what stands behind begins
with what may stand behind a value. -/
namespace JsxTree

inductive Written where
  | atom (text : String)
  | string (s : String)
  | array (xs : List Written)
  | object (fields : List (String × Written))

namespace Json

mutual

def written : Json → Written
  | null => .atom "null"
  | boolean b => .atom (if b then "true" else "false")
  | natural n => .atom n.repr
  | number x => .atom (numberText x)
  | string s => .string s
  | array xs => .array (writtenItems xs)
  | object fields => .object (writtenFields fields)

def writtenItems : List Json → List Written
  | [] => []
  | x :: xs => x.written :: writtenItems xs

def writtenFields : List (String × Json) → List (String × Written)
  | [] => []
  | (key, x) :: fields => (key, x.written) :: writtenFields fields

end

theorem writtenItemsEq (xs : List Json) : writtenItems xs = xs.map written := by
  induction xs with
  | nil => rfl
  | cons x xs ih => rw [writtenItems, ih, List.map_cons]

def writtenField (field : String × Json) : String × Written := (field.1, field.2.written)

theorem writtenFieldsEq (fields : List (String × Json)) : writtenFields fields = fields.map writtenField := by
  induction fields with
  | nil => rfl
  | cons field fields ih => rw [writtenFields, ih, List.map_cons]; rfl

section Strings

def readEscape : List Char → Option (Char × List Char)
  | 'u' :: '0' :: '0' :: a :: b :: cs => some (Char.ofNat (16 * Literal.hexDigit a + Literal.hexDigit b), cs)
  | 'b' :: cs => some ('\x08', cs)
  | 'f' :: cs => some ('\x0c', cs)
  | 'n' :: cs => some ('\n', cs)
  | 'r' :: cs => some ('\r', cs)
  | 't' :: cs => some ('\t', cs)
  | '"' :: cs => some ('"', cs)
  | '\\' :: cs => some ('\\', cs)
  | _ => none

def readChar : List Char → Option (Char × List Char)
  | [] => none
  | c :: cs => if c = '"' then none else if c = '\\' then readEscape cs else some (c, cs)

theorem readEscapeAppend {cs rest tail : List Char} {c : Char} (h : readEscape cs = some (c, rest)) :
    readEscape (cs ++ tail) = some (c, rest ++ tail) := by
  unfold readEscape at h
  split at h <;> first | (cases h; rfl) | cases h

theorem readCharAppend {cs rest tail : List Char} {c : Char} (h : readChar cs = some (c, rest)) :
    readChar (cs ++ tail) = some (c, rest ++ tail) := by
  cases cs with
  | nil => cases h
  | cons e es =>
      simp only [readChar, List.cons_append] at h ⊢
      split at h
      · cases h
      · split at h
        · simp_all [readEscapeAppend h]
        · simp_all

def isEscaped (c : Char) : Bool := c.toNat < 0x20 || c == '"' || c == '\\'

theorem escapedPlain {c : Char} (h : isEscaped c = false) : (escapedChar c).toList = [c] := by
  simp only [isEscaped, Bool.or_eq_false_iff, decide_eq_false_iff_not, beq_eq_false_iff_ne] at h
  obtain ⟨⟨high, quote⟩, slash⟩ := h
  fun_cases escapedChar c <;> first | exact absurd (by decide) high | contradiction | skip
  simp

theorem readEscaped (c : Char) (tail : List Char) : readChar ((escapedChar c).toList ++ tail) = some (c, tail) := by
  have low : ∀ n < 128, isEscaped (Char.ofNat n) = true →
      readChar (escapedChar (Char.ofNat n)).toList = some (Char.ofNat n, []) := by decide +kernel
  cases escaped : isEscaped c with
  | true =>
      have small : c.toNat < 128 := by
        simp only [isEscaped, Bool.or_eq_true, decide_eq_true_eq, beq_iff_eq] at escaped
        obtain (less | rfl) | rfl := escaped
        · omega
        · decide
        · decide
      have own := low c.toNat small
      rw [Char.ofNat_toNat] at own
      exact readCharAppend (own escaped)
  | false =>
      rw [escapedPlain escaped]
      simp only [isEscaped, Bool.or_eq_false_iff, beq_eq_false_iff_ne] at escaped
      simp [readChar, escaped.1.2, escaped.2]

def lettersOf (cs : List Char) : List Char := cs.flatMap fun c => (escapedChar c).toList

theorem lettersAgain {cs ds r r' : List Char} (same : lettersOf cs ++ '"' :: r = lettersOf ds ++ '"' :: r') :
    cs = ds ∧ r = r' := by
  have ends (tail : List Char) : readChar ('"' :: tail) = none := rfl
  have more (c : Char) (cs tail : List Char) :
      readChar (lettersOf (c :: cs) ++ tail) = some (c, lettersOf cs ++ tail) := by
    rw [lettersOf, List.flatMap_cons, List.append_assoc]
    exact readEscaped c _
  induction cs generalizing ds with
  | nil =>
      cases ds with
      | nil => exact ⟨rfl, (List.cons.inj same).2⟩
      | cons d ds =>
          have read := congrArg readChar same
          rw [more] at read
          cases read
  | cons c cs ih =>
      have read := congrArg readChar same
      rw [more] at read
      cases ds with
      | nil => cases read
      | cons d ds =>
          rw [more, Option.some.injEq, Prod.mk.injEq] at read
          obtain ⟨rfl, rest⟩ := read
          obtain ⟨rfl, tails⟩ := ih rest
          exact ⟨rfl, tails⟩

theorem stringLetters (s : String) : (stringText s).toList = '"' :: (lettersOf s.toList ++ ['"']) := by
  simp [stringText, lettersOf, List.flatMap_map]

theorem stringAgain {s t : String} {r r' : List Char} (same : (stringText s).toList ++ r = (stringText t).toList ++ r') :
    s = t ∧ r = r' := by
  rw [stringLetters, stringLetters] at same
  simp only [List.cons_append, List.append_assoc, List.cons.injEq, true_and, List.nil_append] at same
  obtain ⟨letters, tails⟩ := lettersAgain same
  exact ⟨String.toList_inj.mp letters, tails⟩

end Strings

section Atoms

def isMark (c : Char) : Bool := c == '"' || c == '[' || c == ']' || c == '\x7b' || c == '\x7d' || c == ','

def Unmarked (cs : List Char) : Prop := cs.all (fun c => !isMark c) = true

theorem unmarkedIff {cs : List Char} : Unmarked cs ↔ ∀ c ∈ cs, isMark c = false := by simp [Unmarked]

theorem unmarkedAppend {s t : String} (first : Unmarked s.toList) (second : Unmarked t.toList) :
    Unmarked (s ++ t).toList := by
  rw [Unmarked, String.toList_append, List.all_append, first, second]
  rfl

theorem digitUnmarked {c : Char} (h : c.isDigit = true) : isMark c = false := by
  refine Bool.eq_false_iff.mpr fun mark => ?_
  simp only [isMark, Bool.or_eq_true, beq_iff_eq] at mark
  obtain ((((rfl | rfl) | rfl) | rfl) | rfl) | rfl := mark <;> cases h

theorem digitsUnmarked (n : Nat) : Unmarked (Nat.toDigits 10 n) :=
  unmarkedIff.mpr fun _ inside => digitUnmarked (Nat.isDigit_of_mem_toDigits (by decide) (by decide) inside)

theorem reprUnmarked (n : Nat) : Unmarked n.repr.toList := by
  rw [Nat.toList_repr]
  exact digitsUnmarked n

theorem zerosUnmarked (n : Nat) : Unmarked (zeros n).toList := by
  refine unmarkedIff.mpr fun c inside => ?_
  rw [zeros, String.toList_ofList] at inside
  rw [List.eq_of_mem_replicate inside]
  decide

theorem decimalUnmarked (d : Decimal) : Unmarked (decimalText d).toList := by
  have some (digits : List Char) (h : ∀ c ∈ digits, c ∈ Nat.toDigits 10 d.coefficient) :
      Unmarked (String.ofList digits).toList := by
    rw [String.toList_ofList]
    exact unmarkedIff.mpr fun c inside => unmarkedIff.mp (digitsUnmarked d.coefficient) c (h c inside)
  have all := some _ fun _ inside => inside
  have front (n : Nat) := some _ fun _ inside => List.mem_of_mem_take (i := n) inside
  have back (n : Nat) := some _ fun _ inside => List.mem_of_mem_drop (i := n) inside
  fun_cases decimalText d with
  | case1 => exact unmarkedAppend (unmarkedAppend rfl (zerosUnmarked _)) all
  | case2 => exact unmarkedAppend (unmarkedAppend all (zerosUnmarked _)) rfl
  | case3 => exact unmarkedAppend (unmarkedAppend (front _) rfl) (back _)
  | case4 digits _ exponent _ tail sign =>
      have tailed : Unmarked tail.toList := by
        simp only [tail]
        split
        · rfl
        · exact unmarkedAppend rfl (back 1)
      have signed : Unmarked sign.toList := by
        simp only [sign]
        split <;> rfl
      exact unmarkedAppend (unmarkedAppend (unmarkedAppend (unmarkedAppend (front 1) tailed) rfl) signed)
        (reprUnmarked _)

theorem numberUnmarked (x : Binary64) : Unmarked (numberText x).toList := by
  fun_cases numberText x with
  | case1 finite =>
      refine unmarkedAppend ?_ ?_
      · split <;> rfl
      · split
        · rfl
        · exact decimalUnmarked _
  | case2 => rfl

theorem numberNonempty (x : Binary64) : (numberText x).toList ≠ [] := by
  have decimal : decimalText x.shortest ≠ "" := by
    fun_cases decimalText x.shortest <;> simp
  rw [Ne, String.toList_eq_nil_iff]
  fun_cases numberText x with
  | case1 => split <;> split <;> simp [decimal]
  | case2 => decide

end Atoms

section Texts

def line (j : Json) : List Char := j.compact.toList

def Closes (r : List Char) : Prop := ∀ e, r.head? = some e → e = ',' ∨ e = ']' ∨ e = '\x7d'

/-- An item is told from its text, whatever closes it. -/
def SelfTelling {α β : Type} (say : α → List Char) (key : α → β) (x : α) : Prop :=
  ∀ y r r', Closes r → Closes r' → say x ++ r = say y ++ r' → key x = key y ∧ r = r'

def commaJoined {α : Type} (say : α → List Char) : List α → List Char
  | [] => []
  | [x] => say x
  | x :: y :: xs => say x ++ ',' :: commaJoined say (y :: xs)

theorem linePieces (j : Json) : j.line = (j.compactThen []).flatMap String.toList := String.toList_join

theorem itemsLine (xs : List Json) : (compactItems [] xs).flatMap String.toList = commaJoined line xs := by
  induction xs with
  | nil => rfl
  | cons x xs ih =>
      cases xs with
      | nil => rw [compactItems, commaJoined, linePieces]
      | cons y xs =>
          have step : compactItems [] (x :: y :: xs) = compactThen ("," :: compactItems [] (y :: xs)) x := by
            rw [compactItems]; simp
          rw [step, compactThenRest, List.flatMap_append, List.flatMap_cons, ih, commaJoined, linePieces]
          rfl

def fieldLine (field : String × Json) : List Char := (stringText field.1).toList ++ ':' :: field.2.line

theorem fieldsLine (fields : List (String × Json)) :
    (compactFields [] fields).flatMap String.toList = commaJoined fieldLine fields := by
  induction fields with
  | nil => rfl
  | cons field fields ih =>
      obtain ⟨key, x⟩ := field
      cases fields with
      | nil => simp [compactFields, commaJoined, fieldLine, linePieces]
      | cons field fields =>
          have step : compactFields [] ((key, x) :: field :: fields) =
              stringText key :: ":" :: compactThen ("," :: compactFields [] (field :: fields)) x := by
            rw [compactFields]; simp
          rw [step, List.flatMap_cons, List.flatMap_cons, compactThenRest, List.flatMap_append, List.flatMap_cons, ih,
            commaJoined, fieldLine, linePieces]
          simp

theorem arrayLine (xs : List Json) : (array xs).line = '[' :: (commaJoined line xs ++ [']']) := by
  rw [linePieces, compactThen, List.flatMap_cons, compactItemsRest, List.flatMap_append, itemsLine]
  rfl

theorem objectLine (fields : List (String × Json)) :
    (object fields).line = '\x7b' :: (commaJoined fieldLine fields ++ ['\x7d']) := by
  rw [linePieces, compactThen, List.flatMap_cons, compactFieldsRest, List.flatMap_append, fieldsLine]
  rfl

end Texts

section Lists

variable {α β : Type} {say : α → List Char} {key : α → β} {close : Char} {r r' : List Char}

def Opens (cs : List Char) : Prop := ∃ e es, cs = e :: es ∧ e ≠ ',' ∧ e ≠ ']' ∧ e ≠ '\x7d'

def behind (say : α → List Char) (close : Char) (r : List Char) : List α → List Char
  | [] => close :: r
  | x :: xs => ',' :: (commaJoined say (x :: xs) ++ close :: r)

theorem commaJoinedBehind (x : α) (xs : List α) :
    commaJoined say (x :: xs) ++ close :: r = say x ++ behind say close r xs := by
  cases xs with
  | nil => rfl
  | cons y ys => rw [commaJoined, behind, List.append_assoc, List.cons_append]

theorem behindCloses (known : close = ']' ∨ close = '\x7d') (xs : List α) : Closes (behind say close r xs) := by
  intro e head
  cases xs with
  | nil =>
      cases head
      exact .inr known
  | cons =>
      cases head
      exact .inl rfl

theorem Opens.unclosed {cs : List Char} (h : Opens cs) (known : close = ']' ∨ close = '\x7d')
    (same : cs ++ r = close :: r') : False := by
  obtain ⟨e, es, rfl, -, bracket, brace⟩ := h
  obtain ⟨rfl, -⟩ := List.cons.inj same
  obtain rfl | rfl := known
  · exact bracket rfl
  · exact brace rfl

theorem listTold (known : close = ']' ∨ close = '\x7d') (opens : ∀ x, Opens (say x)) {xs ys : List α}
    (told : ∀ x ∈ xs, SelfTelling say key x)
    (same : commaJoined say xs ++ close :: r = commaJoined say ys ++ close :: r') :
    xs.map key = ys.map key ∧ r = r' := by
  induction xs generalizing ys with
  | nil =>
      cases ys with
      | nil => exact ⟨rfl, (List.cons.inj same).2⟩
      | cons y ys =>
          rw [commaJoinedBehind] at same
          exact ((opens y).unclosed known same.symm).elim
  | cons x xs ih =>
      rw [commaJoinedBehind] at same
      cases ys with
      | nil => exact ((opens x).unclosed known same).elim
      | cons y ys =>
          rw [commaJoinedBehind] at same
          obtain ⟨first, more⟩ := told x List.mem_cons_self y _ _ (behindCloses known xs) (behindCloses known ys) same
          have comma : ',' ≠ close := by obtain rfl | rfl := known <;> decide
          have below := fun x' inside => told x' (List.mem_cons_of_mem x inside)
          -- The first items end alike, so both lists go on or both close.
          cases xs with
          | nil =>
              cases ys with
              | nil => exact ⟨by rw [List.map_cons, List.map_cons, first], (List.cons.inj more).2⟩
              | cons => exact absurd (List.cons.inj more).1.symm comma
          | cons x' xs =>
              cases ys with
              | nil => exact absurd (List.cons.inj more).1 comma
              | cons y' ys =>
                  obtain ⟨keys, rest⟩ := ih below (List.cons.inj more).2
                  exact ⟨by rw [List.map_cons, first, keys, List.map_cons (l := y' :: ys)], rest⟩

end Lists

section Values

def mark? : Json → Option Char
  | string _ => some '"'
  | array _ => some '['
  | object _ => some '\x7b'
  | _ => none

theorem atomLine {j : Json} (atom : j.mark? = none) :
    ∃ s, j.written = .atom s ∧ j.line = s.toList ∧ s.toList ≠ [] ∧ Unmarked s.toList := by
  have alone (s : String) (pieces : j.compactThen [] = [s]) : j.line = s.toList := by rw [linePieces, pieces]; simp
  cases j with
  | null => exact ⟨_, rfl, alone _ rfl, by decide, rfl⟩
  | boolean b => exact ⟨_, rfl, alone _ rfl, by cases b <;> decide, by cases b <;> rfl⟩
  | natural n =>
      refine ⟨_, rfl, alone _ rfl, ?_, reprUnmarked n⟩
      rw [Nat.toList_repr]
      exact Nat.toDigits_ne_nil
  | number x => exact ⟨_, rfl, alone _ rfl, numberNonempty x, numberUnmarked x⟩
  | _ => cases atom

theorem stringLine (s : String) : (string s).line = (stringText s).toList := by rw [linePieces, compactThen]; simp

theorem lineHead (j : Json) : ∃ e es, j.line = e :: es ∧ (if isMark e then some e else none) = j.mark? := by
  cases mark : j.mark? with
  | none =>
      obtain ⟨s, -, line, nonempty, unmarked⟩ := atomLine mark
      obtain ⟨e, es, text⟩ := List.exists_cons_of_ne_nil nonempty
      have plain := unmarkedIff.mp unmarked e (by rw [text]; exact List.mem_cons_self)
      exact ⟨e, es, line.trans text, by rw [plain]; rfl⟩
  | some m =>
      cases j with
      | string s =>
          cases mark
          exact ⟨_, _, (stringLine s).trans (stringLetters s), rfl⟩
      | array xs =>
          cases mark
          exact ⟨_, _, arrayLine xs, rfl⟩
      | object fields =>
          cases mark
          exact ⟨_, _, objectLine fields, rfl⟩
      | _ => cases mark

theorem marksAgree {j j' : Json} {r r' : List Char} (same : j.line ++ r = j'.line ++ r') : j.mark? = j'.mark? := by
  obtain ⟨e, es, line, mark⟩ := lineHead j
  obtain ⟨e', es', line', mark'⟩ := lineHead j'
  rw [line, line'] at same
  rw [← mark, ← mark', (List.cons.inj same).1]

theorem lineOpens (j : Json) : Opens j.line := by
  obtain ⟨e, es, line, mark⟩ := lineHead j
  refine ⟨e, es, line, ?_, ?_, ?_⟩ <;> rintro rfl <;> cases j <;> cases mark

theorem fieldOpens (field : String × Json) : Opens (fieldLine field) :=
  ⟨'"', lettersOf field.1.toList ++ ['"'] ++ ':' :: field.2.line, by simp [fieldLine, stringLetters], by decide⟩

theorem atomsAgain {s t : String} {r r' : List Char} (first : Unmarked s.toList) (second : Unmarked t.toList)
    (closes : Closes r) (closes' : Closes r') (same : s.toList ++ r = t.toList ++ r') : s = t ∧ r = r' := by
  have stop : ∀ {r}, Closes r → Lexeme.Avoids (fun c => !isMark c) r := by
    intro r closes e head
    obtain rfl | rfl | rfl := closes e head <;> rfl
  have marks : ∀ {s : String}, Unmarked s.toList → ∀ e ∈ s.toList, (!isMark e) = true := by
    intro s h e inside
    rw [unmarkedIff.mp h e inside]
    rfl
  constructor
  · have front := congrArg (List.takeWhile fun c => !isMark c) same
    rw [Lexeme.takeWhileThen (marks first) (stop closes), Lexeme.takeWhileThen (marks second) (stop closes')] at front
    exact String.toList_inj.mp front
  · have back := congrArg (List.dropWhile fun c => !isMark c) same
    rwa [Lexeme.dropWhileThen (marks first) (stop closes), Lexeme.dropWhileThen (marks second) (stop closes')] at back

theorem fieldTold {field : String × Json} (told : SelfTelling line written field.2) :
    SelfTelling fieldLine writtenField field := by
  intro field' r r' closes closes' same
  simp only [fieldLine, List.append_assoc, List.cons_append] at same
  obtain ⟨name, values⟩ := stringAgain same
  obtain ⟨value, rest⟩ := told field'.2 r r' closes closes' (List.cons.inj values).2
  exact ⟨by rw [writtenField, writtenField, name, value], rest⟩

def parts : Json → List Json
  | array xs => xs
  | object fields => fields.map Prod.snd
  | _ => []

theorem partSmaller {j x : Json} (inside : x ∈ j.parts) : sizeOf x < sizeOf j := by
  cases j with
  | array xs =>
      have member : x ∈ xs := inside
      have := List.sizeOf_lt_of_mem member
      simp only [array.sizeOf_spec]
      omega
  | object fields =>
      obtain ⟨⟨key, x⟩, member, rfl⟩ := List.mem_map.mp inside
      have := List.sizeOf_lt_of_mem member
      simp only [object.sizeOf_spec, Prod.mk.sizeOf_spec] at this ⊢
      omega
  | _ => cases inside

theorem inductOn {P : Json → Prop} (step : ∀ j, (∀ x ∈ j.parts, P x) → P j) (j : Json) : P j :=
  step j fun x _ => inductOn step x
termination_by j
decreasing_by
  rename_i inside
  exact partSmaller inside

theorem told (j : Json) : SelfTelling line written j := by
  induction j using inductOn with
  | step j below =>
      intro j' r r' closes closes' same
      have mark := marksAgree same
      -- The first character tells strings, arrays and objects from one another and from the rest.
      cases atom : j.mark? with
      | none =>
          obtain ⟨s, own, line, -, unmarked⟩ := atomLine atom
          obtain ⟨s', own', line', -, unmarked'⟩ := atomLine (mark.symm.trans atom)
          rw [line, line'] at same
          obtain ⟨rfl, rest⟩ := atomsAgain unmarked unmarked' closes closes' same
          exact ⟨own.trans own'.symm, rest⟩
      | some =>
          cases j with
          | string s =>
              cases j' with
              | string s' =>
                  rw [stringLine, stringLine] at same
                  obtain ⟨rfl, rest⟩ := stringAgain same
                  exact ⟨rfl, rest⟩
              | _ => cases mark
          | array xs =>
              cases j' with
              | array ys =>
                  rw [arrayLine, arrayLine] at same
                  simp only [List.cons_append, List.append_assoc, List.cons.injEq, true_and, List.nil_append] at same
                  have each : ∀ x ∈ xs, SelfTelling line written x := below
                  obtain ⟨items, rest⟩ := listTold (.inl rfl) lineOpens each same
                  exact ⟨by rw [written, written, writtenItemsEq, writtenItemsEq, items], rest⟩
              | _ => cases mark
          | object fields =>
              cases j' with
              | object fields' =>
                  rw [objectLine, objectLine] at same
                  simp only [List.cons_append, List.append_assoc, List.cons.injEq, true_and, List.nil_append] at same
                  have each := fun field inside => fieldTold (below _ (List.mem_map.mpr ⟨field, inside, rfl⟩))
                  obtain ⟨items, rest⟩ := listTold (.inr rfl) fieldOpens each same
                  exact ⟨by rw [written, written, writtenFieldsEq, writtenFieldsEq, items], rest⟩
              | _ => cases mark
          | _ => cases atom

theorem compactTold {j j' : Json} (same : j.compact = j'.compact) : j.written = j'.written := by
  have closes : Closes [] := fun _ head => by cases head
  exact (told j j' [] [] closes closes (by rw [line, line, same])).1

end Values

end Json

end JsxTree
