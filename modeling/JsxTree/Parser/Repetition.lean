import JsxTree.Parser

/-! Rules applied again and again: lists with separators, and chains that fold to the left. Each
round consumes something, so the text left bounds the rounds. -/
namespace JsxTree.Parser

variable {α : Type}

def manyWithin (rule : Rule α) : (bound : List Char) → Parse (List α)
  | [] => do
      match ← rule with
      | none => return []
      | some _ => throw .exhausted
  | _ :: bound => do
      match ← rule with
      | none => return []
      | some a => return a :: (← manyWithin rule bound)

def many (rule : Rule α) : Parse (List α) := fun p => manyWithin rule p.scanner.cursor.rest p

def growWithin (step : α → Rule α) : (bound : List Char) → α → Parse α
  | [], a => do
      match ← step a with
      | none => return a
      | some _ => throw .exhausted
  | _ :: bound, a => do
      match ← step a with
      | none => return a
      | some b => growWithin step bound b

def grow (step : α → Rule α) (a : α) : Parse α := fun p => growWithin step p.scanner.cursor.rest a p

structure Separated (α : Type) where
  separator : Option Token
  item : α
  deriving Repr

/-- A separator and the item after it. The separator commits: without an item it is an error. -/
def separatedItem (item : Rule α) (separators : List String) : Parse (Option (Separated α)) := do
  match ← consume separators with
  | none => return none
  | some token => return some ⟨some token, ← required item⟩

def separatedList (item : Rule α) (separators : List String) : Parse (List (Separated α)) := do
  match ← item with
  | none => return []
  | some first => return ⟨none, first⟩ :: (← many (separatedItem item separators))

inductive Join where
  | binary
  | logical
  deriving DecidableEq, Repr

def Join.kind : Join → Kind
  | binary => .binary
  | logical => .logical

def Join.form {α : Type} (join : Join) (operator : String) (left right : α) : Form α :=
  match join with
  | binary => .binary operator left right
  | logical => .logical operator left right

def operandWithEnd (operand : Rule Node) : Parse (Option (Node × Position)) := do
  match ← operand with
  | none => return none
  | some n => return some (n, ← lastEnd)

/-- One operand more: the node made of what is to the left of it reaches to where the operand was
consumed, a closing parenthesis included. -/
def joinOperand (join : Join) (left : Node) (right : Separated (Node × Position)) : Parse Node := do
  let operator := (right.separator.map Token.text).getD ""
  let node ← openNode join.kind (.node left)
  complete node (join.form operator left right.item.1) (some right.item.2)

def leftFold (operand : Rule Node) (operators : List String) (join : Join) : Parse (Option Node) := do
  match ← separatedList (operandWithEnd operand) operators with
  | [] => return none
  | first :: others => return some (← others.foldlM (joinOperand join) first.item.1)

end JsxTree.Parser
