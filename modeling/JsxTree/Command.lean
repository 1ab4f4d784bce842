import JsxTree.Command.Check
import JsxTree.Command.Dump

/-! The program as a function of its arguments and of the files it can see. -/
namespace JsxTree.Command

def Verb.help : Option Verb → String
  | none => "Usage: jsx [OPTIONS] [COMMAND]

Commands:
  check  Parse JSX files and report any syntax errors
  dump   Print the ESTree JSON of a parsed JSX file
  help   Print this message or the help of the given subcommand(s)

Options:
  -v, --verbose  Enable verbose output.
  -h, --help     Print help
  -V, --version  Print version"
  | some .check => "Parse JSX files and report any syntax errors

Usage: jsx check [OPTIONS] <FILE_OR_DIR_PATHS>...

Arguments:
  <FILE_OR_DIR_PATHS>...  Paths to one or more JSX files or directories containing JSX files which need to be checked.

Options:
      --jsx-file-exts <JSX_FILE_EXTS>              Set of file extensions to filter to when searching for files within a directory. [default: jsx tsx]
  -v, --verbose                                    Enable verbose output.
      --max-recursion-depth <MAX_RECURSION_DEPTH>  Maximum nesting depth of elements and expressions before parsing fails. [default: 64]
  -h, --help                                       Print help"
  | some .dump => "Print the ESTree JSON of a parsed JSX file

Usage: jsx dump [OPTIONS] <FILE>

Arguments:
  <FILE>  Path to the JSX file to parse.

Options:
      --compact                                    Print the JSON on a single line.
  -v, --verbose                                    Enable verbose output.
      --max-recursion-depth <MAX_RECURSION_DEPTH>  Maximum nesting depth of elements and expressions before parsing fails. [default: 64]
  -h, --help                                       Print help"

def Request.run (disk : Disk) (directory : Path) : Request → Except Abort Outcome
  | help topic => .ok (.success (Verb.help topic))
  | version => .ok (.success "jsx 0.0.1")
  | check o => Command.check disk directory o
  | dump o => Command.dump disk directory o

end JsxTree.Command
