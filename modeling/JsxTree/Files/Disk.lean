import JsxTree.Files.Entry

/-! What a program asks of the files that it can see. Walking directories is left open. -/
namespace JsxTree

structure Visit where
  path : Path
  isFile : Bool
  deriving DecidableEq, Repr

structure Disk where
  walk : Path → List (Except String Visit)
  isFile : Path → Bool
  read : Path → Contents

/-- What lies at a path and below it. A path that leads nowhere is closed itself. -/
def reached (find : Path → Except FileError Entry) (path : Path) : List (Path × Entry) :=
  match find path with
  | .ok e => e.places path
  | .error reason => [(path, .closed reason)]

namespace Disk

def walkFailure (path : Path) : FileError → String
  | .loop ancestor => "File system loop found: " ++ path.toString ++ " points to an ancestor " ++ ancestor.toString
  | reason => "IO error for operation on " ++ path.toString ++ ": " ++ reason.message

def visit : Path × Entry → Except String Visit
  | (path, .file _) => .ok ⟨path, true⟩
  | (path, .directory _) => .ok ⟨path, false⟩
  | (path, .closed reason) => .error (walkFailure path reason)

def ofFind (find : Path → Except FileError Entry) : Disk where
  walk path := (reached find path).map visit
  isFile path := match find path with
    | .ok (.file _) => true
    | _ => false
  read path := (find path).bind Entry.read

end Disk

end JsxTree
