import JsxTree.Node

/-! Names of elements and attributes: when two are the same, and how one is written. -/
namespace JsxTree

def Form.sameName (form : Form (Node → Bool)) (other : Node) : Bool :=
  match form, other.form with
  | .jsxIdentifier name, .jsxIdentifier name' => name == name'
  | .namespacedName space name, .namespacedName space' name' => space space' && name name'
  | .jsxMember object property, .jsxMember object' property' => object object' && property property'
  | _, _ => false

def Form.nameText : Form (Option String) → Option String
  | jsxIdentifier name => some name
  | namespacedName space name => do return (← space) ++ ":" ++ (← name)
  | jsxMember object property => do return (← object) ++ "." ++ (← property)
  | _ => none

namespace Node

/-- Names are the same when they have the same parts; spans are put aside. What is no name is the
same as nothing. -/
def sameName (a : Node) : Node → Bool := a.fold fun form _ => form.sameName

def nameText (n : Node) : Option String := n.fold fun form _ => form.nameText

end Node

end JsxTree
