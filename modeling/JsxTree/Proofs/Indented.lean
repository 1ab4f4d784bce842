import JsxTree.Proofs.Cutting
import JsxTree.Proofs.Excerpts
import JsxTree.Proofs.Idle

/-! A closing parenthesis alone behind blanks. It is refused where it stands, however far to the right that is, and the
report on that cannot be made from a certain column on. -/
namespace JsxTree

variable {blanks : List Char}

def stray (blanks : List Char) : String := String.ofList (blanks ++ [')'])

def strayError (blanks : List Char) (file : Option String) : ParseError :=
  ⟨"unexpected token `)`", .ofText blanks [')'] file, .unexpectedToken ")", []⟩

theorem strayNext (all : ∀ e ∈ blanks, Trivia.isBlank e = true) (file : Option String) :
    (Cursor.start (stray blanks)).skip.rest = [')'] ∧ ∃ c', (Cursor.start (stray blanks)).Takes .script ")" c' ∧
      (Cursor.start (stray blanks)).spanTo c' file = .ofText blanks [')'] file := by
  have whole : (stray blanks).toList = blanks ++ [')'] := String.toList_ofList
  have front : (Cursor.start (stray blanks)).skip.rest = [')'] := by
    change (Trivia.split (stray blanks).toList).2 = _
    rw [whole, Trivia.splitBlanks all, Trivia.splitStop (Lexeme.splitPieceNone (by decide) (by decide))]
  obtain ⟨c', takes, rest⟩ := Cursor.markAt (Lexeme.freeScript ")" (by decide)) rfl front
  refine ⟨front, c', takes, (Cursor.startWithin _).spans (Cursor.skipReaches takes) blanks [')'] ?_ ?_ file⟩
  · rw [front, rest]
    rfl
  · rw [front, whole]

namespace Parser

theorem requiredMisfit {α : Type} {r : Rule α} {p p' p'' : Parser} {t : Token} (ran : r p = .ok none p')
    (ahead : found p' = .ok (some t) p'') : required r p = .error (.error t.misfit) p'' := by
  simp only [required, failUnexpected, bind, EStateM.bind, ran, unexpectedToken ahead]
  rfl

theorem strayRefused (all : ∀ e ∈ blanks, Trivia.isBlank e = true) (config : Config) (file : Option String) :
    parse (stray blanks) config file = .error (.error (strayError blanks file)) := by
  obtain ⟨front, c', takes, span⟩ := strayNext all file
  have stands := Grammar.startStands (stray blanks) config file
  -- No expression begins with the parenthesis, so it is the token found in place of one.
  obtain ⟨p, ran, same⟩ := silentRule .expression <| standsSilent stands fun k c'' next => by
    rw [takes] at next
    cases next
    rfl
  obtain ⟨t, p', found, kind, place⟩ := foundToken (stands.unmoved same).scanner (by rw [front]; rfl) takes
  have misfit : t.misfit = strayError blanks file := by
    rw [Token.misfit, kind, place, span]
    rfl
  have refused := requiredMisfit ran found
  rw [misfit] at refused
  unfold parse
  have whole : wholeExpression (.start (stray blanks) config file) = .error (.error (strayError blanks file)) p' := by
    simp only [wholeExpression, bind, EStateM.bind, refused]
  rw [whole]

end Parser

def indented (n : Nat) : String := stray (List.replicate n ' ')

theorem Text.linesFirst {cs : List Char} (nonempty : cs ≠ []) : ∃ first more, lines cs = first :: more := by
  fun_cases lines cs with
  | case1 => exact absurd rfl nonempty
  | case2 | case3 => exact ⟨_, _, rfl⟩

theorem spacesBlank (n : Nat) : ∀ e ∈ List.replicate n ' ', Trivia.isBlank e = true := by
  intro e inside
  rw [List.eq_of_mem_replicate inside]
  decide

theorem indentedStart (n : Nat) (file : Option String) : (strayError (List.replicate n ' ') file).span.start.line = 0 ∧
    (strayError (List.replicate n ' ') file).span.start.column = n := by
  have plain : ∀ c ∈ List.replicate n ' ', Text.isLineBreak c = false := by
    intro c inside
    rw [List.eq_of_mem_replicate inside]
    decide
  refine ⟨Text.breaksNone plain, ?_⟩
  change (Text.lastLine (List.replicate n ' ')).length = n
  rw [Text.lastLinePlain plain, List.length_replicate]

theorem indentedWide {n : Nat} (far : 0x10000 ≤ n) (file : Option String) :
    (strayError (List.replicate n ' ') file).report (some (indented n)) = .error .padding := by
  obtain ⟨line, column⟩ := indentedStart n file
  refine ParseError.reportWide fun narrow => ?_
  have near := narrow _ List.mem_cons_self ?_
  · rw [column] at near
    omega
  · obtain ⟨first, more, lines⟩ := Text.linesFirst (show (indented n).toList ≠ [] by simp [indented, stray])
    rw [Excerpt.at?, line, lines]
    rfl

end JsxTree
