import JsxTree.Files.Disk
import JsxTree.Grammar
import JsxTree.ParseError.Report

/-! What a run of the program leaves behind, and the tree of a file or why there is none. -/
namespace JsxTree.Command

structure Outcome where
  code : Nat
  stdout : String
  stderr : String
  deriving DecidableEq, Repr

namespace Outcome

def success (text : String) : Outcome := ⟨0, text ++ "\n", ""⟩

def failure (text : String) : Outcome := ⟨1, "", text ++ "\n"⟩

end Outcome

def exitCode : Except Abort Outcome → Nat
  | .ok o => o.code
  | .error _ => 101

def checkMark : String := "\x1b[32m\u2714\x1b[0m"

def cross : String := "\x1b[31m\u2718\x1b[0m"

inductive Failure where
  | unreadable (reason : FileError)
  | rejected (source : String) (halt : Halt)
  deriving DecidableEq, Repr

def report (source : String) : Halt → Except Abort String
  | .error e => e.report (some source)
  | .exhausted => .ok "error: out of steps"
  | .misshapen => .ok "error: misshapen node"

def textOf (contents : Contents) : Except FileError String :=
  match contents with
  | .ok bytes =>
      match String.fromUTF8? bytes with
      | some source => .ok source
      | none => .error .notText
  | .error reason => .error reason

def treeOf (directory : Path) (maxDepth : Nat) (path : Path) (contents : Contents) :
    Except Failure Node :=
  match textOf contents with
  | .error reason => .error (.unreadable reason)
  | .ok source =>
      match parse source { maxDepth } (some (path.relativeTo directory).toString) with
      | .ok n => .ok n
      | .error halt => .error (.rejected source halt)

end JsxTree.Command
