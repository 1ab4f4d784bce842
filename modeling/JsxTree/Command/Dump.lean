import JsxTree.Command.Outcome
import JsxTree.Command.Request
import JsxTree.Node.Json
import JsxTree.Text.Hidden

/-! Writing the tree of one file as JSON. -/
namespace JsxTree.Command

namespace Dump

def failure (path : Path) : Failure → Except Abort String
  | .unreadable reason =>
      .ok (cross ++ " failed to read " ++ Text.inQuotes path.toString ++ ": " ++ reason.message)
  | .rejected source halt => report source halt

def written (compact : Bool) (n : Node) : String :=
  if compact then n.toJson.compact else n.toJson.pretty

end Dump

def dump (disk : Disk) (directory : Path) (o : DumpOptions) : Except Abort Outcome :=
  match treeOf directory o.maxDepth o.path (disk.read o.path) with
  | .ok n => .ok (.success (Dump.written o.compact n))
  | .error e => (Dump.failure o.path e).map .failure

end JsxTree.Command
