/-! The lines of a text for display. A line feed ends a line, together with a carriage return
before it; the text after the last line feed is a line only if it is not empty. -/
namespace JsxTree.Text

def dropReturn (line : List Char) : List Char :=
  if line.getLast? = some '\r' then line.dropLast else line

def lines (cs : List Char) : List (List Char) :=
  match cs with
  | [] => []
  | c :: cs =>
      match _rest : (c :: cs).dropWhile (· != '\n') with
      | [] => [c :: cs]
      | _ :: rest => dropReturn ((c :: cs).takeWhile (· != '\n')) :: lines rest
termination_by cs.length
decreasing_by
  have shorter := (List.dropWhile_suffix (· != '\n') (l := c :: cs)).length_le
  rw [_rest] at shorter
  simp only [List.length_cons] at shorter ⊢
  omega

end JsxTree.Text
