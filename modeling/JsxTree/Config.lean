import JsxTree.Json

/-! The settings of a parser, and reading them from JSON. -/
namespace JsxTree

structure Config where
  maxDepth : Nat := 64
  jsx : Bool := true
  deriving DecidableEq, Repr

namespace Config

def isDepth (n : Nat) : Bool := n < 0x10000000000000000

def depth? : Json → Option Nat
  | .natural n => if isDepth n then some n else none
  | _ => none

def flag? : Json → Option Bool
  | .boolean b => some b
  | _ => none

def setting {α : Type} (read : Json → Option α) (default : α) : Option Json → Option α
  | some json => read json
  | none => some default

/-- An object with any of the fields, others being ignored, or an array of the settings in order,
of which the last ones may be left out. -/
def ofJson? : Json → Option Config
  | .object fields => do
      let maxDepth ← setting depth? 64 (fields.lookup "max_recursion_depth")
      let jsx ← setting flag? true (fields.lookup "jsx")
      return ⟨maxDepth, jsx⟩
  | .array settings =>
      if 2 < settings.length then none
      else do
        let maxDepth ← setting depth? 64 settings[0]?
        let jsx ← setting flag? true settings[1]?
        return ⟨maxDepth, jsx⟩
  | _ => none

def toJson (c : Config) : Json :=
  .object [("max_recursion_depth", .natural c.maxDepth), ("jsx", .boolean c.jsx)]

end Config

end JsxTree
