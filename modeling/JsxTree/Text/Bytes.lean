/-! Cutting a text at byte offsets of its UTF-8 form. A cut is given only where a character
begins or the text ends. -/
namespace JsxTree.Text

def byteLength : List Char → Nat
  | [] => 0
  | c :: cs => c.utf8Size + byteLength cs

def dropBytes : Nat → List Char → Option (List Char)
  | 0, cs => some cs
  | _ + 1, [] => none
  | n + 1, c :: cs => if c.utf8Size ≤ n + 1 then dropBytes (n + 1 - c.utf8Size) cs else none

def takeBytes : Nat → List Char → Option (List Char)
  | 0, _ => some []
  | _ + 1, [] => none
  | n + 1, c :: cs =>
      if c.utf8Size ≤ n + 1 then (takeBytes (n + 1 - c.utf8Size) cs).map (c :: ·) else none

def slice (start stop : Nat) (cs : List Char) : Option (List Char) :=
  if start ≤ stop then (dropBytes start cs).bind (takeBytes (stop - start)) else none

theorem byteLengthAppend (as bs : List Char) :
    byteLength (as ++ bs) = byteLength as + byteLength bs := by
  induction as with
  | nil => simp [byteLength]
  | cons c cs ih => rw [List.cons_append, byteLength, byteLength, ih, Nat.add_assoc]

theorem byteLengthSucc (c : Char) (cs : List Char) :
    ∃ n, byteLength (c :: cs) = n + 1 ∧ c.utf8Size ≤ n + 1 ∧ n + 1 - c.utf8Size = byteLength cs := by
  have positive := c.utf8Size_pos
  refine ⟨byteLength (c :: cs) - 1, ?_, ?_, ?_⟩ <;> rw [byteLength] <;> omega

theorem dropBytesAppend (as bs : List Char) : dropBytes (byteLength as) (as ++ bs) = some bs := by
  induction as with
  | nil => simp [byteLength, dropBytes]
  | cons c cs ih =>
      obtain ⟨n, whole, fits, tail⟩ := byteLengthSucc c cs
      rw [whole, List.cons_append, dropBytes, if_pos fits, tail, ih]

theorem takeBytesAppend (as bs : List Char) : takeBytes (byteLength as) (as ++ bs) = some as := by
  induction as with
  | nil => simp [byteLength, takeBytes]
  | cons c cs ih =>
      obtain ⟨n, whole, fits, tail⟩ := byteLengthSucc c cs
      rw [whole, List.cons_append, takeBytes, if_pos fits, tail, ih, Option.map_some]

theorem sliceAppend (as bs cs : List Char) :
    slice (byteLength as) (byteLength (as ++ bs)) (as ++ bs ++ cs) = some bs := by
  have room : byteLength as ≤ byteLength (as ++ bs) := by rw [byteLengthAppend]; omega
  rw [slice, if_pos room, List.append_assoc, dropBytesAppend, Option.bind_some, byteLengthAppend,
    Nat.add_sub_cancel_left, takeBytesAppend]

end JsxTree.Text
