import JsxTree.Token

/-! The blanks and comments between tokens. They are cut off the front of a text piece by piece,
and the cut loses nothing. -/
namespace JsxTree.Trivia

def isBlank (c : Char) : Bool := Text.isWhiteSpace c || c == '\uFEFF'

inductive Piece where
  | blank (c : Char)
  | line (text : List Char)
  | block (text : List Char)
  deriving DecidableEq, Repr

def Piece.raw : Piece → List Char
  | blank c => [c]
  | line text => '/' :: '/' :: text
  | block text => '/' :: '*' :: text ++ ['*', '/']

def splitBlock : List Char → Option (List Char × List Char)
  | [] => none
  | '*' :: '/' :: rest => some ([], rest)
  | c :: cs => (splitBlock cs).map fun (text, rest) => (c :: text, rest)

def endsLine (c : Char) : Bool := c == '\n' || c == '\r'

def splitPiece : List Char → Option (Piece × List Char)
  | '/' :: '/' :: cs => some (.line (cs.takeWhile (!endsLine ·)), cs.dropWhile (!endsLine ·))
  | '/' :: '*' :: cs => (splitBlock cs).map fun (text, rest) => (.block text, rest)
  | c :: cs => if isBlank c then some (.blank c, cs) else none
  | [] => none

theorem splitBlockSplits {cs text rest : List Char} (h : splitBlock cs = some (text, rest)) :
    cs = text ++ '*' :: '/' :: rest := by
  fun_induction splitBlock cs generalizing text rest with
  | case1 => simp at h
  | case2 rest' => simp only [Option.some.injEq, Prod.mk.injEq] at h; simp [← h.1, h.2]
  | case3 c cs _ ih =>
      simp only [Option.map_eq_some_iff, Prod.mk.injEq, Prod.exists] at h
      obtain ⟨t, r, found, rfl, rfl⟩ := h
      rw [ih found]; rfl

theorem splitPieceSplits {cs rest : List Char} {p : Piece} (h : splitPiece cs = some (p, rest)) :
    cs = p.raw ++ rest := by
  unfold splitPiece at h
  split at h
  · cases Option.some.inj h
    simp [Piece.raw, List.takeWhile_append_dropWhile]
  · simp only [Option.map_eq_some_iff, Prod.mk.injEq, Prod.exists] at h
    obtain ⟨t, r, found, rfl, rfl⟩ := h
    rw [splitBlockSplits found]; simp [Piece.raw]
  · split at h
    · cases Option.some.inj h; rfl
    · simp at h
  · simp at h

theorem rawPos (p : Piece) : 0 < p.raw.length := by
  cases p <;> simp [Piece.raw]

def split (cs : List Char) : List Piece × List Char :=
  match _found : splitPiece cs with
  | none => ([], cs)
  | some (p, rest) => (p :: (split rest).1, (split rest).2)
termination_by cs.length
decreasing_by
  all_goals
    have shorter := congrArg List.length (splitPieceSplits _found)
    have positive := rawPos p
    rw [List.length_append] at shorter
    omega

theorem splitStop {cs : List Char} (h : splitPiece cs = none) : split cs = ([], cs) := by
  rw [split]; split
  · rfl
  · rename_i found; rw [h] at found; cases found

theorem splitMore {cs rest : List Char} {p : Piece} (h : splitPiece cs = some (p, rest)) :
    split cs = (p :: (split rest).1, (split rest).2) := by
  rw [split]; split
  · rename_i found; rw [h] at found; cases found
  · rename_i q r found
    rw [h] at found
    cases Option.some.inj found
    rfl

def raw (ps : List Piece) : List Char := ps.flatMap Piece.raw

theorem splitSplits (cs : List Char) : cs = raw (split cs).1 ++ (split cs).2 := by
  fun_induction split cs with
  | case1 cs h => simp [raw]
  | case2 cs p rest h ih =>
      rw [splitPieceSplits h]
      simp only [raw, List.flatMap_cons, List.append_assoc]
      exact congrArg (p.raw ++ ·) ih

theorem splitMaximal (cs : List Char) : splitPiece (split cs).2 = none := by
  fun_induction split cs with
  | case1 cs h => exact h
  | case2 cs p rest h ih => exact ih

def opensComment : List Char → Bool
  | '/' :: '*' :: _ => true
  | _ => false

def comments (file : Option String) : Place → List Piece → List Comment
  | _, [] => []
  | place, p :: ps =>
      let after := place.past p.raw
      let span := Span.mk place.position after.position file
      match p with
      | .blank _ => comments file after ps
      | .line text => ⟨.line, String.ofList text, span⟩ :: comments file after ps
      | .block text => ⟨.block, String.ofList text, span⟩ :: comments file after ps

end JsxTree.Trivia
