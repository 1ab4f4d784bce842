import JsxTree.Command
import JsxTree.Proofs.Accepted
import JsxTree.Proofs.Lexemes

/-! Two commands on one file. It is checked and dumped within the same limit on depth, which is read from the arguments,
and what one of the commands says of it the other one says too. -/
namespace JsxTree.Command

section Arguments

def pathArgs (path : String) : List String :=
  if Word.ofChars path.toList = .plain path.toList then [path] else ["--", path]

def depthArgs : Option Nat → List String
  | none => []
  | some n => ["--max-recursion-depth", n.repr]

def extensionArgs (extensions : List String) : List String := extensions.map ("--jsx-file-exts=" ++ ·)

def compactArgs (compact : Bool) : List String := if compact then ["--compact"] else []

def checkArgs (extensions : List String) (depth : Option Nat) (path : String) : List String :=
  "check" :: extensionArgs extensions ++ (depthArgs depth ++ pathArgs path)

def dumpArgs (compact : Bool) (depth : Option Nat) (path : String) : List String :=
  "dump" :: compactArgs compact ++ (depthArgs depth ++ pathArgs path)

/-- What is relied on where arguments are read: either command is told its path, and its limit if there is one. -/
structure ReadsArgs {ε : Type} (readArgs : List String → Except ε Request) : Prop where
  check {path : String} {depth : Option Nat} (named : path ≠ "") (small : ∀ n ∈ depth, Config.isDepth n = true)
    (extensions : List String) :
    ∃ found, readArgs (checkArgs extensions depth path) = .ok (.check ⟨found, depth.getD 64, [.ofString path]⟩)
  dump {path : String} {depth : Option Nat} (named : path ≠ "") (small : ∀ n ∈ depth, Config.isDepth n = true)
    (compact : Bool) : readArgs (dumpArgs compact depth path) = .ok (.dump ⟨compact, depth.getD 64, .ofString path⟩)

def ran {ε : Type} (readArgs : List String → Except ε Request) (directory : Path) (disk : Disk) (args : List String) :
    Except ε (Except Abort Outcome) := (readArgs args).map (Request.run disk directory)

variable {verb : Verb} {g : Given} {path : String} {depth : Option Nat} {n : Nat} {args : List (List Char)}

theorem joinedValue {name : List Char} (solid : '=' ∉ name) (value : List Char) :
    Word.ofChars ('-' :: '-' :: (name ++ '=' :: value)) = .long name (some value) := by
  have others : ∀ c ∈ name, (c != '=') = true := fun c inside => by simpa using fun same : c = '=' => solid (same ▸ inside)
  have stop : Lexeme.Avoids (· != '=') ('=' :: value) := Lexeme.avoidsCons (by decide)
  have split : (name ++ '=' :: value).span (· != '=') = (name, '=' :: value) := by
    rw [List.span_eq_takeWhile_dropWhile, Lexeme.takeWhileThen others stop, Lexeme.dropWhileThen others stop]
  rw [Word.ofChars, split]
  simp

theorem decimalRead (n : Nat) : Literal.ofDigits 10 ((Nat.toDigits 10 n).map Literal.hexDigit) = n := by
  have decimals : ∀ c ∈ Nat.toDigits 10 n, Literal.hexDigit c = c.toNat - '0'.toNat := by
    intro c inside
    rw [Literal.hexDigit, if_pos (Nat.isDigit_of_mem_toDigits (by decide) (Nat.le_refl 10) inside)]
  have whole : Nat.ofDigitChars 10 (Nat.toDigits 10 n) 0 = n := Nat.ofDigitChars_toDigits (by decide) (Nat.le_refl 10)
  rw [List.map_congr_left decimals, Literal.ofDigits, List.foldl_map]
  simp only [Nat.mul_comm _ 10]
  rwa [Nat.ofDigitChars_eq_foldl] at whole

theorem digitsPlain {cs : List Char} (all : ∀ c ∈ cs, c.isDigit = true) : Word.ofChars cs = .plain cs := by
  have unsigned : ∀ more, cs ≠ '-' :: more := by
    rintro more rfl
    cases all '-' List.mem_cons_self
  unfold Word.ofChars
  split
  · exact absurd rfl (unsigned _)
  · exact absurd rfl (unsigned _)
  · exact absurd rfl (unsigned _)
  · rfl

namespace Given

theorem depthRead (small : Config.isDepth n = true) :
    depth? n.repr.toList = some n ∧ Word.ofChars n.repr.toList = .plain n.repr.toList := by
  rw [Nat.toList_repr]
  have all : ∀ c ∈ Nat.toDigits 10 n, c.isDigit = true :=
    fun c inside => Nat.isDigit_of_mem_toDigits (by decide) (Nat.le_refl 10) inside
  refine ⟨?_, digitsPlain all⟩
  unfold depth?
  split
  · rename_i signed
    rw [signed] at all
    cases all '+' List.mem_cons_self
  · simp [decimalRead, small, List.all_eq_true.mpr all]

theorem readPath (named : path ≠ "") (alone : g.paths = []) :
    read verb g ((pathArgs path).map String.toList) = .ok { g with paths := [.ofString path] } := by
  have nonempty : path.toList ≠ [] := fun empty => named (String.toList_eq_nil_iff.mp empty)
  have added : g.addPath verb path.toList = .ok { g with paths := [.ofString path] } := by
    rw [addPath, if_neg nonempty, if_neg fun several => several.2 alone, alone]
    rfl
  rw [pathArgs]
  split
  · rename_i plain
    simp only [List.map_cons, List.map_nil, read, plain, added]
    rfl
  · have dashes : Word.ofChars "--".toList = .separator := by decide
    simp only [List.map_cons, List.map_nil, read, dashes, List.foldlM_cons, added]
    rfl

theorem readDepth (small : Config.isDepth n = true) (unset : g.maxDepth = none) :
    read verb g ((depthArgs (some n)).map String.toList ++ args) = read verb { g with maxDepth := some n } args := by
  have long : Word.ofChars "--max-recursion-depth".toList = .long "max-recursion-depth".toList none := by decide
  have known : named (some verb) "max-recursion-depth".toList = .ok .maxDepth := by cases verb <;> decide
  obtain ⟨depth, value⟩ := depthRead small
  have own : g.set .maxDepth n.repr.toList = .ok { g with maxDepth := some n } := by
    rw [set, depth, unset]
  simp only [depthArgs, List.map_cons, List.map_nil, List.cons_append, List.nil_append]
  rw [read, long]
  simp only [known, value]
  change (g.set .maxDepth n.repr.toList >>= fun g => read verb g args) = _
  rw [own]
  rfl

theorem readRest (named : path ≠ "") (small : ∀ n ∈ depth, Config.isDepth n = true) (unset : g.maxDepth = none)
    (alone : g.paths = []) : read verb g ((depthArgs depth ++ pathArgs path).map String.toList) =
      .ok { g with maxDepth := depth, paths := [.ofString path] } := by
  rw [List.map_append]
  cases depth with
  | none =>
      have same : ({ g with maxDepth := none } : Given) = g := by rw [← unset]
      exact same ▸ readPath named alone
  | some n =>
      rw [readDepth (small n rfl) unset]
      exact readPath named alone

theorem readExtensions (extensions : List String) (g : Given) (args : List (List Char)) : ∃ found,
    read .check g ((extensionArgs extensions).map String.toList ++ args) = read .check { g with extensions := found } args := by
  induction extensions generalizing g with
  | nil => exact ⟨g.extensions, rfl⟩
  | cons extension extensions ih =>
      obtain ⟨found, more⟩ := ih { g with extensions := g.extensions ++ extension.toList.splitOn ',' }
      refine ⟨found, ?_⟩
      have long : Word.ofChars ("--jsx-file-exts=" ++ extension).toList =
          .long "jsx-file-exts".toList (some extension.toList) := by
        have joined := joinedValue (show '=' ∉ "jsx-file-exts".toList by decide) extension.toList
        rwa [String.toList_append]
      have known : named (some .check) "jsx-file-exts".toList = .ok .extensions := by decide
      simp only [extensionArgs, List.map_cons, List.cons_append]
      rw [read, long]
      simp only [known]
      exact more

theorem readCompact (compact : Bool) (args : List (List Char)) : ∃ flags,
    read .dump {} ((compactArgs compact).map String.toList ++ args) = read .dump { flags := flags } args ∧
      (Switch.compact ∈ flags ↔ compact = true) := by
  cases compact with
  | false => exact ⟨[], rfl, by simp⟩
  | true =>
      have long : Word.ofChars "--compact".toList = .long "compact".toList none := by decide
      have known : named (some .dump) "compact".toList = .ok .compact := by decide
      refine ⟨[.compact], ?_, by simp⟩
      simp only [compactArgs, if_true, List.map_cons, List.map_nil, List.cons_append, List.nil_append]
      rw [read, long]
      simp only [known]
      rfl

end Given

theorem commandRead {name : String} {args : List String} {r : Request} (word : Word.ofChars name.toList = .plain name.toList)
    (known : Request.verb? name.toList = some verb) (reads : Given.read verb {} (args.map String.toList) = .ok g)
    (asks : g.request verb = .ok r) : Request.ofArgs (name :: args) = .ok r := by
  have whole : Request.read {} ((name :: args).map String.toList) = .ok r := by
    simp only [List.map_cons, Request.read, word, known, reads]
    exact asks
  rw [Request.ofArgs, whole]

theorem checkRead (named : path ≠ "") (small : ∀ n ∈ depth, Config.isDepth n = true) (extensions : List String) :
    ∃ found, Request.ofArgs (checkArgs extensions depth path) = .ok (.check ⟨found, depth.getD 64, [.ofString path]⟩) := by
  obtain ⟨found, reads⟩ := Given.readExtensions extensions {} ((depthArgs depth ++ pathArgs path).map String.toList)
  rw [Given.readRest named small rfl rfl, ← List.map_append] at reads
  exact ⟨_, commandRead (by decide) (by decide) reads rfl⟩

theorem dumpRead (named : path ≠ "") (small : ∀ n ∈ depth, Config.isDepth n = true) (compact : Bool) :
    Request.ofArgs (dumpArgs compact depth path) = .ok (.dump ⟨compact, depth.getD 64, .ofString path⟩) := by
  obtain ⟨flags, reads, on⟩ := Given.readCompact compact ((depthArgs depth ++ pathArgs path).map String.toList)
  rw [Given.readRest named small rfl rfl, ← List.map_append] at reads
  have same : decide (Switch.compact ∈ flags) = compact := by rw [Bool.eq_iff_iff, decide_eq_true_iff, on]
  have asks : Given.request { flags, maxDepth := depth, paths := [.ofString path] } .dump =
      .ok (.dump ⟨decide (Switch.compact ∈ flags), depth.getD 64, .ofString path⟩) := rfl
  rw [same] at asks
  exact commandRead (by decide) (by decide) reads asks

theorem ofArgsReads : ReadsArgs Request.ofArgs := ⟨checkRead, dumpRead⟩

end Arguments

section Single

structure Holds (disk : Disk) (path : Path) (contents : Contents) : Prop where
  walk : disk.walk path = [.ok ⟨path, true⟩]
  isFile : disk.isFile path = true
  read : disk.read path = contents

variable {path : Path} {disk : Disk} {contents : Contents}

theorem findHolds {find : Path → Except FileError Entry} (file : find path = .ok (.file contents)) :
    Holds (.ofFind find) path contents where
  walk := by simp [Disk.ofFind, reached, file, Entry.places, Disk.visit]
  isFile := by simp [Disk.ofFind, file]
  read := by
    simp only [Disk.ofFind, file]
    rfl

theorem onlySelected (file : Holds disk path contents) (extensions : List (List Char)) (maxDepth : Nat) :
    Selection.ofPaths disk ⟨extensions, maxDepth, [path]⟩ = ⟨[], [path], 0⟩ := by
  have met : [path].flatMap disk.walk = [.ok ⟨path, true⟩] := by rw [List.flatMap_singleton, file.walk]
  have only : Selection.only? disk [path] = some path := if_pos file.isFile
  simp only [Selection.ofPaths, met, only]
  by_cases selected : Selection.selects extensions path = true
  · simp [Selection.file?, Selection.failure?, selected]
  · simp [Selection.file?, Selection.failure?, selected]

theorem checkedOne (file : Holds disk path contents) (directory : Path) (extensions : List (List Char)) (maxDepth : Nat) :
    (∀ n, treeOf directory maxDepth path contents = .ok n →
      exitCode (check disk directory ⟨extensions, maxDepth, [path]⟩) = 0) ∧
    ∀ e, treeOf directory maxDepth path contents = .error e → check disk directory ⟨extensions, maxDepth, [path]⟩ =
      (Check.fileFailure directory path e).map fun text =>
        .failure (text ++ "\n" ++ cross ++ " 1 of 1 JSX files failed to parse.") := by
  rw [check, onlySelected file]
  constructor
  · intro n tree
    have alone : Check.failureOf disk directory maxDepth path = .ok none := by rw [Check.failureOf, file.read, tree]
    simp [Check.outcome, alone, bind, Except.bind, pure, Except.pure, exitCode, Outcome.success]
  · intro e tree
    have summary : " " ++ (Nat.repr 1 ++ (" of " ++ (Nat.repr 1 ++ " JSX files failed to parse."))) =
        " 1 of 1 JSX files failed to parse." := by decide
    have alone : Check.failureOf disk directory maxDepth path = (Check.fileFailure directory path e).map some := by
      rw [Check.failureOf, file.read, tree]
    simp only [Check.outcome, List.mapM_cons, List.mapM_nil, alone]
    cases Check.fileFailure directory path e with
    | error => rfl
    | ok text =>
        simp only [Except.map, bind, Except.bind, pure, Except.pure, List.filterMap_cons, List.filterMap_nil, id,
          List.nil_append, List.length_cons, List.length_nil, Nat.zero_add, if_neg (List.cons_ne_nil _ _),
          String.intercalate_singleton, String.append_assoc, summary]

theorem dumpedOne (file : Holds disk path contents) (directory : Path) (compact : Bool) (maxDepth : Nat) :
    (∀ n, treeOf directory maxDepth path contents = .ok n → exitCode (dump disk directory ⟨compact, maxDepth, path⟩) = 0) ∧
      ∀ e, treeOf directory maxDepth path contents = .error e → dump disk directory ⟨compact, maxDepth, path⟩ =
        (Dump.failure path e).map .failure := by
  rw [dump, file.read]
  constructor
  · intro n tree
    rw [tree]
    rfl
  · intro e tree
    rw [tree]

theorem failureFails (r : Except Abort String) (f : String → String) : exitCode (r.map fun text => .failure (f text)) ≠ 0 := by
  cases r with
  | ok => exact Nat.one_ne_zero
  | error => exact Nat.succ_ne_zero 100

theorem failureAlike (r : Except Abort String) (f g : String → String) :
    exitCode (r.map fun text => .failure (f text)) = exitCode (r.map fun text => .failure (g text)) := by
  cases r <;> rfl

end Single

/-- Checking a file and dumping it come to the same: they succeed just where the file is accepted, and to the report on a
file that is not, checking adds its summary. Where the report cannot be made neither of them says anything. -/
theorem checkAgreesWithDump {ε : Type} {readArgs : List String → Except ε Request} (reads : ReadsArgs readArgs) {disk : Disk}
    {bytes : ByteArray} {path : String} {depth : Option Nat} (named : path ≠ "")
    (small : ∀ n ∈ depth, Config.isDepth n = true) (file : Holds disk (.ofString path) (.ok bytes)) (directory : Path)
    (extensions : List String) (compact : Bool) :
    ∃ checked dumped, ran readArgs directory disk (checkArgs extensions depth path) = .ok checked ∧
      ran readArgs directory disk (dumpArgs compact depth path) = .ok dumped ∧ exitCode checked = exitCode dumped ∧
      (exitCode dumped = 0 ↔ Accepted (depth.getD 64) (.ok bytes)) ∧
      ∀ source, String.fromUTF8? bytes = some source → exitCode dumped ≠ 0 →
        (Narrow directory (depth.getD 64) (.ofString path) (.ok bytes) → ∃ o o', checked = .ok o ∧ dumped = .ok o' ∧
          o.stderr = o'.stderr ++ cross ++ " 1 of 1 JSX files failed to parse.\n") ∧
        (¬Narrow directory (depth.getD 64) (.ofString path) (.ok bytes) →
          checked = .error .padding ∧ dumped = .error .padding) := by
  obtain ⟨found, toCheck⟩ := reads.check named small extensions
  have toDump := reads.dump named small compact
  have checked : ran readArgs directory disk (checkArgs extensions depth path) =
      .ok (check disk directory ⟨found, depth.getD 64, [.ofString path]⟩) := by rw [ran, toCheck]; rfl
  have dumped : ran readArgs directory disk (dumpArgs compact depth path) =
      .ok (dump disk directory ⟨compact, depth.getD 64, .ofString path⟩) := by rw [ran, toDump]; rfl
  refine ⟨_, _, checked, dumped, ?_⟩
  obtain ⟨checkedTree, checkedError⟩ := checkedOne file directory found (depth.getD 64)
  obtain ⟨dumpedTree, dumpedError⟩ := dumpedOne file directory compact (depth.getD 64)
  -- Both commands take the tree from here; what is left is what each makes of it.
  cases tree : treeOf directory (depth.getD 64) (.ofString path) (.ok bytes) with
  | ok n =>
      rw [checkedTree n tree, dumpedTree n tree]
      exact ⟨rfl, iff_of_true rfl (treeIff.mp ⟨n, tree⟩), fun _ _ failed => absurd rfl failed⟩
  | error e =>
      have rejected : ¬Accepted (depth.getD 64) (.ok bytes) := by
        intro accepted
        obtain ⟨n, found⟩ := treeIff.mpr accepted
        rw [tree] at found
        cases found
      rw [checkedError e tree, dumpedError e tree]
      cases e with
      | unreadable reason =>
          simp only [Check.fileFailure, Dump.failure, Except.map, exitCode, Outcome.failure]
          refine ⟨trivial, iff_of_false Nat.one_ne_zero rejected, fun source read _ => ?_⟩
          obtain ⟨e, told, -⟩ := treeRejected (textOfIff.mpr ⟨bytes, rfl, read⟩) rejected
          rw [tree] at told
          cases told
      | rejected text halt =>
          refine ⟨failureAlike _ _ id, iff_of_false (failureFails _ id) rejected, fun source read _ => ?_⟩
          obtain ⟨e, told, reports⟩ := treeRejected (textOfIff.mpr ⟨bytes, rfl, read⟩) rejected
          rw [tree] at told
          cases told
          simp only [Check.fileFailure, Dump.failure, report]
          constructor
          · intro narrow
            obtain ⟨text, reported⟩ := ParseError.reportNarrow.mpr (reports.mpr narrow)
            rw [reported]
            refine ⟨_, _, rfl, rfl, ?_⟩
            simp only [Outcome.failure, String.append_assoc]
            rfl
          · intro wide
            rw [ParseError.reportWide (mt reports.mp wide)]
            exact ⟨rfl, rfl⟩

theorem checkAgreesOnBrokenTag : ∃ disk o o',
    ran Request.ofArgs (.ofString "/work") disk ["check", "--jsx-file-exts=mdx", "--max-recursion-depth", "3", "--", "-x"] =
      .ok (.ok o) ∧
    ran Request.ofArgs (.ofString "/work") disk ["dump", "--compact", "--max-recursion-depth", "3", "--", "-x"] =
      .ok (.ok o') ∧
    o.code = o'.code ∧ o'.code ≠ 0 ∧ o.stderr = o'.stderr ++ cross ++ " 1 of 1 JSX files failed to parse.\n" := by
  have named : "-x" ≠ "" := by decide
  have small : ∀ n ∈ some 3, Config.isDepth n = true := by simp [Config.isDepth]
  have file : Holds (.ofFind fun _ => .ok (.file (.ok "<".toUTF8))) (.ofString "-x") (.ok "<".toUTF8) := findHolds rfl
  obtain ⟨checked, dumped, toCheck, toDump, same, accepts, more⟩ :=
    checkAgreesWithDump ofArgsReads named small file (.ofString "/work") ["mdx"] true
  have text := utf8Read "<"
  have failed : parse "<" { maxDepth := 3 } (some (Path.relativeTo (.ofString "-x") (.ofString "/work")).toString) =
      .error (.error ⟨"unexpected end of input", ⟨⟨0, 1, some 1, 1⟩, ⟨0, 1, some 1, 1⟩, some "-x"⟩, .unexpectedEnd, []⟩) :=
    Parser.refusedOf (by decide +kernel)
  have tree : treeOf (.ofString "/work") 3 (.ofString "-x") (.ok "<".toUTF8) = .error (.rejected "<" (.error
      ⟨"unexpected end of input", ⟨⟨0, 1, some 1, 1⟩, ⟨0, 1, some 1, 1⟩, some "-x"⟩, .unexpectedEnd, []⟩)) := by
    rw [treeOf, textOfIff.mpr ⟨_, rfl, text⟩]
    dsimp only
    rw [failed]
  have rejected : ¬Accepted 3 (.ok "<".toUTF8) := by
    intro accepted
    obtain ⟨n, found⟩ := treeIff.mpr accepted
    rw [tree] at found
    cases found
  have narrow : Narrow (.ofString "/work") 3 (.ofString "-x") (.ok "<".toUTF8) := by
    obtain ⟨e, told, reports⟩ := treeRejected (textOfIff.mpr ⟨_, rfl, text⟩) rejected
    rw [tree] at told
    cases told
    exact reports.mp (by simp [ParseError.Narrow, ParseError.spans])
  have ended : exitCode dumped ≠ 0 := mt accepts.mp rejected
  obtain ⟨o, o', rfl, rfl, stderr⟩ := (more "<" text ended).1 narrow
  have args : checkArgs ["mdx"] (some 3) "-x" = ["check", "--jsx-file-exts=mdx", "--max-recursion-depth", "3", "--", "-x"] := by
    decide +kernel
  have args' : dumpArgs true (some 3) "-x" = ["dump", "--compact", "--max-recursion-depth", "3", "--", "-x"] := by
    decide +kernel
  exact ⟨_, o, o', args ▸ toCheck, args' ▸ toDump, same, ended, stderr⟩

theorem indentedAborts {n : Nat} (far : 0x10000 ≤ n) {disk : Disk}
    (file : Holds disk (.ofString "a.jsx") (.ok (indented n).toUTF8)) (directory : Path) :
    ran Request.ofArgs directory disk ["check", "a.jsx"] = .ok (.error .padding) ∧
      ran Request.ofArgs directory disk ["dump", "a.jsx"] = .ok (.error .padding) := by
  have named : "a.jsx" ≠ "" := by decide
  have small : ∀ n ∈ none, Config.isDepth n = true := by simp
  obtain ⟨found, toCheck⟩ := checkRead named small []
  have toDump := dumpRead named small false
  have args : checkArgs [] none "a.jsx" = ["check", "a.jsx"] := by decide +kernel
  have args' : dumpArgs false none "a.jsx" = ["dump", "a.jsx"] := by decide +kernel
  have tree := indentedTree directory (.ofString "a.jsx") 64 n
  have checked := (checkedOne file directory found 64).2 _ tree
  have dumped := (dumpedOne file directory false 64).2 _ tree
  simp only [Check.fileFailure, Dump.failure, report, indentedWide far] at checked dumped
  rw [ran, ran, ← args, ← args', toCheck, toDump]
  exact ⟨congrArg Except.ok checked, congrArg Except.ok dumped⟩

theorem checkEndsUnsummed :
    let disk : Disk := .ofFind fun _ => .ok (.file (.ok (indented 0x10000).toUTF8))
    Holds disk (.ofString "a.jsx") (.ok (indented 0x10000).toUTF8) ∧
      String.fromUTF8? (indented 0x10000).toUTF8 = some (indented 0x10000) ∧
      ¬Accepted 64 (.ok (indented 0x10000).toUTF8) ∧
      ¬∃ o o', ran Request.ofArgs (.ofString "/work") disk ["check", "a.jsx"] = .ok (.ok o) ∧
        ran Request.ofArgs (.ofString "/work") disk ["dump", "a.jsx"] = .ok (.ok o') ∧
        o.stderr = o'.stderr ++ cross ++ " 1 of 1 JSX files failed to parse.\n" := by
  intro disk
  have file : Holds disk (.ofString "a.jsx") (.ok (indented 0x10000).toUTF8) := findHolds rfl
  obtain ⟨unchecked, -⟩ := indentedAborts (Nat.le_refl 0x10000) file (.ofString "/work")
  refine ⟨file, utf8Read (indented 0x10000), indentedRejected 64 0x10000, ?_⟩
  rintro ⟨o, o', same, -⟩
  rw [unchecked] at same
  cases same

end JsxTree.Command
