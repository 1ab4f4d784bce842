import JsxTree.Command

/-! The command line: the files that the arguments lead to are read, and the outcome is printed. -/
namespace JsxTree.Command

def errorNumber (code : UInt32) : Nat :=
  if 0x80000000 ≤ code.toNat then 0x100000000 - code.toNat else code.toNat

def reason (code : UInt32) (text : String) : FileError :=
  match errorNumber code with
  | 2 => .missing
  | 20 => .notDirectory
  | 21 => .isDirectory
  | 36 => .nameTooLong
  | n => .other (text.capitalize ++ " (os error " ++ n.repr ++ ")")

def reasonOf : IO.Error → FileError
  | .noFileOrDirectory _ code text => reason code text
  | .noSuchThing _ code text | .inappropriateType _ code text | .permissionDenied _ code text
  | .resourceExhausted _ code text | .invalidArgument _ code text => reason code text
  | .otherError code text => reason code text
  | e => .other e.toString

/-- The directories above are known by their real paths, so that a link to one of them ends the
way. Only files that are wanted are read. -/
partial def load (wanted : Path → Bool) (above : List (String × Path)) (path : Path) : IO Entry := do
  try
    let place := (← IO.currentDir) / path.toString
    match (← place.metadata).type with
    | .dir =>
        let real := (← IO.FS.realPath place).toString
        if let some ancestor := above.lookup real then return .closed (.loop ancestor)
        let entries ← (← place.readDir).mapM fun e => do
          let name := e.fileName.toList
          return (name, ← load wanted ((real, path) :: above) (path.entry name))
        return .directory entries.toList
    | _ =>
        if wanted path then return .file (.ok (← IO.FS.readBinFile place))
        else return .file (.ok ByteArray.empty)
  catch e => return .closed (reasonOf e)

def found (r : Request) : IO (List (Path × Entry)) :=
  match r with
  | .check o => o.paths.mapM fun path => do
      let wanted (p : Path) : Bool := p == path || Selection.selects o.extensions p
      return (path, ← load wanted [] path)
  | .dump o => return [(o.path, ← load (· == o.path) [] o.path)]
  | .help _ | .version => return []

def lookUp (entries : List (Path × Entry)) (path : Path) : Except FileError Entry :=
  let met : List (Path × Entry) := entries.flatMap fun (path, e) => e.places path
  match met.lookup path with
  | some (.closed reason) => .error reason
  | some e => .ok e
  | none => .error .missing

end JsxTree.Command

open JsxTree in
def main (args : List String) : IO UInt32 := do
  match Command.Request.ofArgs args with
  | .error e =>
      IO.eprintln ("error: " ++ e.message)
      return 2
  | .ok r =>
      let disk := Disk.ofFind (Command.lookUp (← Command.found r))
      let ended := r.run disk (.ofString (← IO.currentDir).toString)
      match ended with
      | .ok outcome =>
          IO.print outcome.stdout
          IO.eprint outcome.stderr
      | .error abort => IO.eprintln abort.message
      return UInt32.ofNat (Command.exitCode ended)
