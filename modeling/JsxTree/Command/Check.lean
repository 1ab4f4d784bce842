import JsxTree.Command.Outcome
import JsxTree.Command.Request

/-! Checking files and the files below directories. A file is selected by its extension; all that
are selected are parsed, and every failure is reported. -/
namespace JsxTree.Command

structure Selection where
  failures : List String
  files : List Path
  skipped : Nat

namespace Selection

def failure? : Except String Visit → Option String
  | .error failure => some failure
  | .ok _ => none

def file? : Except String Visit → Option Path
  | .ok visit => if visit.isFile then some visit.path else none
  | .error _ => none

def selects (extensions : List (List Char)) (path : Path) : Bool :=
  path.extension?.any (extensions.contains ·)

def only? (disk : Disk) : List Path → Option Path
  | [path] => if disk.isFile path then some path else none
  | _ => none

/-- A file that is the only path given is selected whatever its extension. -/
def ofPaths (disk : Disk) (o : CheckOptions) : Selection :=
  let met := o.paths.flatMap disk.walk
  let (files, others) := (met.filterMap file?).partition (selects o.extensions)
  let (files, skipped) :=
    match files, only? disk o.paths with
    | [], some path => ([path], others.length - 1)
    | files, _ => (files, others.length)
  ⟨met.filterMap failure?, files.mergeSort Path.atMost, skipped⟩

end Selection

namespace Check

def fileFailure (directory path : Path) : Failure → Except Abort String
  | .unreadable reason => .ok ((path.relativeTo directory).toString ++ ": " ++ reason.message)
  | .rejected source halt => report source halt

def failureOf (disk : Disk) (directory : Path) (maxDepth : Nat) (path : Path) : Except Abort (Option String) :=
  match treeOf directory maxDepth path (disk.read path) with
  | .ok _ => .ok none
  | .error e => (fileFailure directory path e).map some

def outcome (disk : Disk) (directory : Path) (maxDepth : Nat) (s : Selection) : Except Abort Outcome := do
  let failed := (← s.files.mapM (failureOf disk directory maxDepth)).filterMap id
  let errors := s.failures ++ failed
  if errors = [] then
    return .success (checkMark ++ " All JSX parsed successfully:\n  * Parsed " ++ s.files.length.repr ++
      " files.\n  * Skipped " ++ s.skipped.repr ++ " files with other extensions.")
  else
    return .failure ("\n".intercalate errors ++ "\n" ++ cross ++ " " ++ failed.length.repr ++ " of " ++
      s.files.length.repr ++ " JSX files failed to parse.")

end Check

def check (disk : Disk) (directory : Path) (o : CheckOptions) : Except Abort Outcome :=
  Check.outcome disk directory o.maxDepth (Selection.ofPaths disk o)

end JsxTree.Command
