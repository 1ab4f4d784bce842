import JsxTree.Files.Path

/-! A tree of files and directories, as far as it can be seen: what a path leads to, and which
files lie below a directory. -/
namespace JsxTree

inductive FileError where
  | missing
  | loop (ancestor : Path)
  | notDirectory
  | isDirectory
  | nameTooLong
  | notText
  | other (message : String)
  deriving DecidableEq, Repr

def FileError.message : FileError → String
  | missing => "No such file or directory (os error 2)"
  | loop _ => "Too many levels of symbolic links (os error 40)"
  | notDirectory => "Not a directory (os error 20)"
  | isDirectory => "Is a directory (os error 21)"
  | nameTooLong => "File name too long (os error 36)"
  | notText => "stream did not contain valid UTF-8"
  | other message => message

abbrev Contents := Except FileError ByteArray

inductive Entry where
  | file (contents : Contents)
  | directory (entries : List (List Char × Entry))
  | closed (reason : FileError)

namespace Entry

def empty : Entry := directory []

mutual

def places (path : Path) : Entry → List (Path × Entry)
  | file contents => [(path, file contents)]
  | directory entries => (path, directory entries) :: placesBelow path entries
  | closed reason => [(path, closed reason)]

def placesBelow (path : Path) : List (List Char × Entry) → List (Path × Entry)
  | [] => []
  | (name, e) :: entries => e.places (path.entry name) ++ placesBelow path entries

end

def read : Entry → Contents
  | file contents => contents
  | directory _ => .error .isDirectory
  | closed reason => .error reason

/-- Goes on from an entry, below the directories given, innermost first. Two dots lead to the
directory above, and at the root stay there. -/
def follow : (above : List Entry) → Entry → List (List Char) → Except FileError Entry
  | _, e, [] => .ok e
  | _, .file _, _ :: _ => .error .notDirectory
  | _, .closed reason, _ :: _ => .error reason
  | above, .directory entries, piece :: pieces =>
      if Path.stays piece then follow above (.directory entries) pieces
      else if piece = ['.', '.'] then
        match above with
        | [] => follow [] (.directory entries) pieces
        | e :: above => follow above e pieces
      else if 255 < (String.ofList piece).utf8ByteSize then .error .nameTooLong
      else
        match entries.lookup piece with
        | some e => follow (.directory entries :: above) e pieces
        | none => .error .missing

def find (root : Entry) (directory path : Path) : Except FileError Entry :=
  if 4096 ≤ path.toString.utf8ByteSize then .error .nameTooLong
  else if path.isAbsolute then follow [] root path.pieces
  else follow [] root (directory.pieces ++ path.pieces)

def insert (name : List Char) (e : Entry) : List (List Char × Entry) → List (List Char × Entry)
  | [] => [(name, e)]
  | (n, old) :: entries => if n = name then (name, e) :: entries else (n, old) :: insert name e entries

def put (new : Entry) : List (List Char) → Entry → Entry
  | [], old =>
      match new, old with
      | .directory [], .directory entries => .directory entries
      | new, _ => new
  | name :: names, .directory entries =>
      .directory (insert name (put new names ((entries.lookup name).getD empty)) entries)
  | name :: names, _ => .directory [(name, put new names empty)]

end Entry

end JsxTree
