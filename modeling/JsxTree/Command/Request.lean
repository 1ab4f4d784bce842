import JsxTree.Config
import JsxTree.Files.Path
import JsxTree.Literal.Escape

/-! What the arguments of the command line ask for. They are read from left to right, and the
first one that is wrong, or asks for help or the version, ends the reading. -/
namespace JsxTree.Command

inductive Verb where
  | check
  | dump
  deriving DecidableEq, Repr

structure CheckOptions where
  extensions : List (List Char)
  maxDepth : Nat
  paths : List Path
  deriving DecidableEq, Repr

structure DumpOptions where
  compact : Bool
  maxDepth : Nat
  path : Path
  deriving DecidableEq, Repr

inductive Request where
  | help (topic : Option Verb)
  | version
  | check (o : CheckOptions)
  | dump (o : DumpOptions)
  deriving DecidableEq, Repr

inductive UsageError where
  | unknownCommand (text : List Char)
  | unknownArgument (text : List Char)
  | repeated (option : String)
  | missingValue (option : String)
  | surplusValue (option : String)
  | invalidValue (what : String) (text : List Char)
  | missingPath
  deriving DecidableEq, Repr

def UsageError.message : UsageError → String
  | unknownCommand text => "unrecognized subcommand '" ++ String.ofList text ++ "'"
  | unknownArgument text => "unexpected argument '" ++ String.ofList text ++ "' found"
  | repeated option => "the argument '--" ++ option ++ "' cannot be used multiple times"
  | missingValue option => "a value is required for '--" ++ option ++ "' but none was supplied"
  | surplusValue option => "unexpected value for '--" ++ option ++ "' found; no more were expected"
  | invalidValue what text => "invalid value '" ++ String.ofList text ++ "' for '" ++ what ++ "'"
  | missingPath => "a path is required but none was given"

inductive Stop where
  | answer (r : Request)
  | misuse (e : UsageError)
  deriving DecidableEq, Repr

section Words

inductive Switch where
  | verbose
  | help
  | version
  | compact
  | maxDepth
  | extensions
  deriving DecidableEq, Repr

def Switch.name : Switch → String
  | verbose => "verbose"
  | help => "help"
  | version => "version"
  | compact => "compact"
  | maxDepth => "max-recursion-depth"
  | extensions => "jsx-file-exts"

def Switch.letter? : Switch → Option Char
  | verbose => some 'v'
  | help => some 'h'
  | version => some 'V'
  | compact | maxDepth | extensions => none

def Switch.takesValue : Switch → Bool
  | maxDepth | extensions => true
  | verbose | help | version | compact => false

def switches : Option Verb → List Switch
  | none => [.verbose, .help, .version]
  | some .check => [.extensions, .maxDepth, .verbose, .help]
  | some .dump => [.compact, .maxDepth, .verbose, .help]

inductive Word where
  | separator
  | long (name : List Char) (value : Option (List Char))
  | letters (cs : List Char)
  | plain (text : List Char)
  deriving DecidableEq, Repr

def Word.ofChars : List Char → Word
  | ['-', '-'] => separator
  | '-' :: '-' :: cs =>
      match cs.span (· != '=') with
      | (name, []) => long name none
      | (name, _ :: value) => long name (some value)
  | '-' :: c :: cs => letters (c :: cs)
  | cs => plain cs

end Words

structure Given where
  flags : List Switch := []
  maxDepth : Option Nat := none
  extensions : List (List Char) := []
  paths : List Path := []
  deriving DecidableEq, Repr

namespace Given

def depth? (cs : List Char) : Option Nat :=
  let digits := match cs with
    | '+' :: digits => digits
    | digits => digits
  let n := Literal.ofDigits 10 (digits.map Literal.hexDigit)
  if !digits.isEmpty && digits.all Char.isDigit && Config.isDepth n then some n else none

def turnOn (topic : Option Verb) (g : Given) : Switch → Except Stop Given
  | .help => .error (.answer (.help topic))
  | .version => .error (.answer .version)
  | s =>
      if s ∈ g.flags then .error (.misuse (.repeated s.name))
      else .ok { g with flags := s :: g.flags }

def set (g : Given) (s : Switch) (value : List Char) : Except Stop Given :=
  match s with
  | .maxDepth =>
      match depth? value, g.maxDepth with
      | none, _ => .error (.misuse (.invalidValue s.name value))
      | some _, some _ => .error (.misuse (.repeated s.name))
      | some n, none => .ok { g with maxDepth := some n }
  | .extensions => .ok { g with extensions := g.extensions ++ value.splitOn ',' }
  | _ => .error (.misuse (.surplusValue s.name))

def turnOnLetter (topic : Option Verb) (g : Given) (c : Char) : Except Stop Given :=
  match (switches topic).find? (·.letter? == some c) with
  | some s => g.turnOn topic s
  | none => .error (.misuse (.unknownArgument ['-', c]))

def addPath (verb : Verb) (g : Given) (text : List Char) : Except Stop Given :=
  if text = [] then .error (.misuse (.invalidValue "path" text))
  else if verb = .dump ∧ g.paths ≠ [] then .error (.misuse (.unknownArgument text))
  else .ok { g with paths := g.paths ++ [⟨text⟩] }

def named (topic : Option Verb) (name : List Char) : Except Stop Switch :=
  match (switches topic).find? (·.name.toList == name) with
  | some s => .ok s
  | none => .error (.misuse (.unknownArgument ('-' :: '-' :: name)))

/-- The arguments of a command. The value of an option is the next argument unless it is joined to
the name, and does not look like an option then. -/
def read (verb : Verb) (g : Given) : List (List Char) → Except Stop Given
  | [] => .ok g
  | arg :: args =>
      match Word.ofChars arg with
      | .separator => args.foldlM (addPath verb) g
      | .plain text => do (← g.addPath verb text).read verb args
      | .letters cs => do (← cs.foldlM (turnOnLetter (some verb)) g).read verb args
      | .long name value => do
          let s ← named (some verb) name
          match value with
          | some value => (← g.set s value).read verb args
          | none =>
              if s.takesValue then
                match args with
                | [] => .error (.misuse (.missingValue s.name))
                | value :: args =>
                    match Word.ofChars value with
                    | .plain value => (← g.set s value).read verb args
                    | _ => .error (.misuse (.missingValue s.name))
              else (← g.turnOn (some verb) s).read verb args

def request (g : Given) (verb : Verb) : Except Stop Request :=
  let maxDepth := g.maxDepth.getD 64
  match verb, g.paths with
  | _, [] => .error (.misuse .missingPath)
  | .check, paths =>
      let extensions := if g.extensions = [] then ["jsx".toList, "tsx".toList] else g.extensions
      .ok (.check ⟨extensions.map (·.dropWhile (· == '.')), maxDepth, paths⟩)
  | .dump, path :: _ => .ok (.dump ⟨.compact ∈ g.flags, maxDepth, path⟩)

end Given

namespace Request

def verb? (text : List Char) : Option Verb :=
  if text = "check".toList then some .check
  else if text = "dump".toList then some .dump
  else none

def helpOn : List (List Char) → Except Stop Request
  | [] => .ok (.help none)
  | text :: rest =>
      match rest with
      | more :: _ => .error (.misuse (.unknownCommand more))
      | [] =>
          match verb? text with
          | some verb => .ok (.help (some verb))
          | none =>
              if text = "help".toList then .ok (.help none) else .error (.misuse (.unknownCommand text))

def read (g : Given) : List (List Char) → Except Stop Request
  | [] => .ok (.help none)
  | arg :: args =>
      match Word.ofChars arg with
      | .separator =>
          match args with
          | [] => .ok (.help none)
          | text :: _ => .error (.misuse (.unknownArgument text))
      | .letters cs => do read (← cs.foldlM (Given.turnOnLetter none) g) args
      | .long name value => do
          let s ← Given.named none name
          match value with
          | none => read (← g.turnOn none s) args
          | some _ => .error (.misuse (.surplusValue s.name))
      | .plain text =>
          match verb? text with
          | some verb => do (← Given.read verb {} args).request verb
          | none => if text = "help".toList then helpOn args else .error (.misuse (.unknownCommand text))

def ofArgs (args : List String) : Except UsageError Request :=
  match read {} (args.map String.toList) with
  | .ok r => .ok r
  | .error (.answer r) => .ok r
  | .error (.misuse e) => .error e

end Request

end JsxTree.Command
