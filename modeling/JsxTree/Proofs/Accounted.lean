import JsxTree.Command.Check
import JsxTree.Proofs.Accepted

/-! Checking accounts for every file. What is met under the arguments is counted as it lies there, however it is walked, and
what is selected is sorted by its paths, in which no order of the arguments is left. -/
namespace JsxTree

namespace Path

theorem nameTold {text text' : List Char} {ms ns : List Nat}
    (same : text.map (·.toNat + 1) ++ 0 :: ms = text'.map (·.toNat + 1) ++ 0 :: ns) : text = text' ∧ ms = ns := by
  induction text generalizing text' with
  | nil => cases text' <;> simp_all
  | cons c text ih =>
      cases text' with
      | nil => simp at same
      | cons c' text' =>
          simp only [List.map_cons, List.cons_append, List.cons.injEq, Nat.add_right_cancel_iff] at same
          obtain ⟨rfl, behind⟩ := ih same.2
          exact ⟨by rw [Char.toNat_inj.mp same.1], behind⟩

theorem partTold {p q : Part} {ms ns : List Nat} (same : p.key ++ ms = q.key ++ ns) : p = q ∧ ms = ns := by
  cases p <;> cases q <;> simp [Part.key] at same
  case root.root | current.current | parent.parent => exact ⟨rfl, same⟩
  case name.name =>
    obtain ⟨rfl, behind⟩ := nameTold same
    exact ⟨rfl, behind⟩

theorem keyTold {ps qs : List Part} (same : ps.flatMap Part.key = qs.flatMap Part.key) : ps = qs := by
  have nonempty : ∀ p : Part, p.key ≠ [] := by
    intro p
    cases p <;> simp [Part.key]
  induction ps generalizing qs with
  | nil =>
      cases qs with
      | nil => rfl
      | cons q qs =>
          rw [List.flatMap_nil, List.flatMap_cons] at same
          exact absurd (List.append_eq_nil_iff.mp same.symm).1 (nonempty q)
  | cons p ps ih =>
      cases qs with
      | nil =>
          rw [List.flatMap_nil, List.flatMap_cons] at same
          exact absurd (List.append_eq_nil_iff.mp same).1 (nonempty p)
      | cons q qs =>
          rw [List.flatMap_cons, List.flatMap_cons] at same
          obtain ⟨rfl, behind⟩ := partTold same
          rw [ih behind]

theorem partsTold {p q : Path} (first : p.atMost q = true) (second : q.atMost p = true) : p.parts = q.parts :=
  keyTold (keyAtMostAntisymm first second)

end Path

def Entry.contents? : Entry → Option Contents
  | file contents => some contents
  | _ => none

namespace Command

section Spec

variable (find : Path → Except FileError Entry)

def filesAt (path : Path) : List (Path × Contents) :=
  (reached find path).filterMap fun place => place.2.contents?.map (place.1, ·)

def regular (paths : List Path) : List (Path × Contents) := paths.flatMap (filesAt find)

def sole? : List Path → Option (Path × Contents)
  | [path] => match find path with
    | .ok (.file contents) => some (path, contents)
    | _ => none
  | _ => none

/-- The files to be checked: the one that is the only argument, or else those with such an extension. -/
def chosen (o : CheckOptions) : List (Path × Contents) :=
  match sole? find o.paths with
  | some file => [file]
  | none => (regular find o.paths).filter (Selection.selects o.extensions ·.1)

def failing (o : CheckOptions) : List (Path × Contents) := (chosen find o).filter fun file => ¬Accepted o.maxDepth file.2

/-- What is relied on where directories are walked: every regular file at a path and below it is met once, and is read as it
lies there. The order, the directories and all that is said of failures are left open. -/
structure Lists (disk : Disk) (paths : List Path) : Prop where
  met : ∀ path ∈ paths, ((disk.walk path).filterMap Selection.file?).Perm ((filesAt find path).map (·.1))
  isFile : ∀ path ∈ paths, (disk.isFile path = true ↔ ∃ contents, find path = .ok (.file contents))
  read : ∀ path ∈ paths, ∀ file ∈ filesAt find path, disk.read file.1 = file.2

end Spec

def walkFailures (disk : Disk) (paths : List Path) : List String := (paths.flatMap disk.walk).filterMap Selection.failure?

/-- The reports on files, in this order. -/
def Told (disk : Disk) (directory : Path) (maxDepth : Nat) : List (Path × Contents) → List String → Prop :=
  List.Forall₂ fun file report => Check.failureOf disk directory maxDepth file.1 = .ok (some report)

variable {find : Path → Except FileError Entry} {disk : Disk} {o : CheckOptions} {paths : List Path}

section Selecting

theorem soleIff {file : Path × Contents} :
    sole? find paths = some file ↔ paths = [file.1] ∧ find file.1 = .ok (.file file.2) := by
  constructor
  · intro found
    unfold sole? at found
    split at found
    · split at found
      · cases found
        exact ⟨rfl, ‹_›⟩
      · cases found
    · cases found
  · rintro ⟨rfl, leads⟩
    rw [sole?, leads]

theorem regularSole {file : Path × Contents} (sole : sole? find paths = some file) : regular find paths = [file] := by
  obtain ⟨rfl, leads⟩ := soleIff.mp sole
  simp [regular, filesAt, reached, leads, Entry.places, Entry.contents?]

theorem chosenRegular {file : Path × Contents} (inside : file ∈ chosen find o) : file ∈ regular find o.paths := by
  rw [chosen] at inside
  cases sole : sole? find o.paths with
  | some other =>
      rw [sole] at inside
      rwa [regularSole sole]
  | none =>
      rw [sole] at inside
      exact (List.mem_filter.mp inside).1

theorem Lists.readChosen (lists : Lists find disk o.paths) {file : Path × Contents} (inside : file ∈ chosen find o) :
    disk.read file.1 = file.2 := by
  obtain ⟨path, given, here⟩ := List.mem_flatMap.mp (chosenRegular inside)
  exact lists.read path given file here

theorem Lists.found (lists : Lists find disk paths) :
    ((paths.flatMap disk.walk).filterMap Selection.file?).Perm ((regular find paths).map (·.1)) := by
  rw [List.filterMap_flatMap, regular, List.map_flatMap]
  exact List.Perm.flatMap_left _ lists.met

theorem onlyIff {path : Path} : Selection.only? disk paths = some path ↔ paths = [path] ∧ disk.isFile path = true := by
  constructor
  · intro found
    unfold Selection.only? at found
    split at found
    · split at found
      · cases found
        exact ⟨rfl, ‹_›⟩
      · cases found
    · cases found
  · rintro ⟨rfl, file⟩
    exact if_pos file

theorem Lists.only (lists : Lists find disk paths) :
    Selection.only? disk paths = (sole? find paths).map (·.1) := by
  refine Option.ext fun path => ?_
  rw [onlyIff, Option.map_eq_some_iff]
  constructor
  · rintro ⟨rfl, file⟩
    obtain ⟨contents, leads⟩ := (lists.isFile path List.mem_cons_self).mp file
    exact ⟨(path, contents), soleIff.mpr ⟨rfl, leads⟩, rfl⟩
  · rintro ⟨file, sole, rfl⟩
    obtain ⟨same, leads⟩ := soleIff.mp sole
    exact ⟨same, (lists.isFile file.1 (same ▸ List.mem_cons_self)).mpr ⟨file.2, leads⟩⟩

theorem Lists.selected (lists : Lists find disk o.paths) : ∃ files : List Path, files.Perm ((chosen find o).map (·.1)) ∧
    Selection.ofPaths disk o = ⟨walkFailures disk o.paths, files.mergeSort Path.atMost,
      (regular find o.paths).length - (chosen find o).length⟩ := by
  have found := lists.found
  simp only [Selection.ofPaths, List.partition_eq_filter_filter, lists.only, chosen, walkFailures]
  generalize (o.paths.flatMap disk.walk).filterMap Selection.file? = files at found
  cases sole : sole? find o.paths with
  | some file =>
      rw [regularSole sole] at found ⊢
      obtain rfl := List.perm_singleton.mp found
      refine ⟨[file.1], List.Perm.refl _, ?_⟩
      cases selects : Selection.selects o.extensions file.1 <;> simp [selects]
  | none =>
      have kept := found.filter (Selection.selects o.extensions)
      rw [List.filter_map] at kept
      refine ⟨files.filter (Selection.selects o.extensions), kept, ?_⟩
      have counted := List.length_eq_length_filter_add (l := files) (Selection.selects o.extensions)
      have others : (files.filter (not ∘ Selection.selects o.extensions)).length = (regular find o.paths).length -
          ((regular find o.paths).filter (Selection.selects o.extensions ·.1)).length := by
        have all := found.length_eq
        have few := kept.length_eq
        rw [List.length_map] at all few
        refine Nat.eq_sub_of_add_eq ?_
        rw [← all, counted, Nat.add_comm]
        exact congrArg (· + _) few.symm
      simp only [← others]
      generalize files.filter (Selection.selects o.extensions) = files
      cases files <;> rfl

theorem chosenFew (find : Path → Except FileError Entry) (o : CheckOptions) :
    (chosen find o).length ≤ (regular find o.paths).length := by
  rw [chosen]
  cases sole : sole? find o.paths with
  | some file => rw [regularSole sole]
  | none => exact List.length_filter_le _ _

theorem Lists.readAll (lists : Lists find disk o.paths) {files : List Path} (perm : files.Perm ((chosen find o).map (·.1))) :
    ∃ told : List (Path × Contents), told.Perm (chosen find o) ∧ told.map (·.1) = files := by
  refine ⟨files.map fun path => (path, disk.read path), ?_, by simp [Function.comp_def]⟩
  have alike := perm.map fun path => (path, disk.read path)
  rw [List.map_map] at alike
  have same : (chosen find o).map ((fun path => (path, disk.read path)) ∘ (·.1)) = (chosen find o).map id :=
    List.map_congr_left fun file inside => Prod.ext rfl (lists.readChosen inside)
  rwa [same, List.map_id] at alike

end Selecting

section Judging

variable {directory : Path} {maxDepth : Nat} {path : Path}

theorem failureNone : Check.failureOf disk directory maxDepth path = .ok none ↔ Accepted maxDepth (disk.read path) := by
  rw [← treeIff, Check.failureOf]
  cases treeOf directory maxDepth path (disk.read path) with
  | ok n => simp
  | error e => cases made : Check.fileFailure directory path e <;> simp [made, Except.map]

theorem failureMade : (∃ r, Check.failureOf disk directory maxDepth path = .ok r) ↔
    Narrow directory maxDepth path (disk.read path) := by
  by_cases accepted : Accepted maxDepth (disk.read path)
  · exact iff_of_true ⟨none, failureNone.mpr accepted⟩ (narrowAccepted accepted)
  cases text : textOf (disk.read path) with
  | error reason =>
      refine iff_of_true ⟨_, by rw [Check.failureOf, treeOf, text]; rfl⟩ fun source e text' => ?_
      rw [text] at text'
      cases text'
  | ok source =>
      obtain ⟨e, told, reports⟩ := treeRejected text accepted
      rw [Check.failureOf, told, ← reports, ← ParseError.reportNarrow]
      simp only [Check.fileFailure, report]
      cases e.report (some source) <;> simp [Except.map]

theorem reportsMade {files : List (Path × Contents)} (read : ∀ file ∈ files, disk.read file.1 = file.2)
    (narrow : ∀ file ∈ files, Narrow directory maxDepth file.1 file.2) :
    ∃ rs, (files.map (·.1)).mapM (Check.failureOf disk directory maxDepth) = .ok rs ∧
      Told disk directory maxDepth (files.filter fun file => ¬Accepted maxDepth file.2) (rs.filterMap id) := by
  induction files with
  | nil => exact ⟨[], rfl, .nil⟩
  | cons file files ih =>
      obtain ⟨own, others⟩ := List.forall_mem_cons.mp read
      obtain ⟨near, nearby⟩ := List.forall_mem_cons.mp narrow
      obtain ⟨rs, more, told⟩ := ih others nearby
      obtain ⟨r, made⟩ := failureMade.mpr (own ▸ near)
      have judged : Check.failureOf disk directory maxDepth file.1 = .ok none ↔ Accepted maxDepth (disk.read file.1) :=
        failureNone
      rw [made, own, Except.ok.injEq] at judged
      refine ⟨r :: rs, ?_, ?_⟩
      · rw [List.map_cons, List.mapM_cons, made, more]
        rfl
      · cases r with
        | none =>
            rw [List.filter_cons_of_neg (by simpa using judged.mp rfl)]
            exact told
        | some report =>
            rw [List.filter_cons_of_pos (by simpa using judged)]
            exact .cons made told

end Judging

section Order

theorem sortedAlike {files files' : List Path} (perm : files.Perm files')
    (apart : files.Pairwise fun p q => p.parts ≠ q.parts) : files.mergeSort Path.atMost = files'.mergeSort Path.atMost := by
  have sorted : ∀ files : List Path, (files.mergeSort Path.atMost).Pairwise fun p q => p.atMost q = true :=
    List.pairwise_mergeSort (fun _ _ _ => Path.keyAtMostTrans) fun p q =>
      Bool.or_eq_true_iff.mpr (Path.keyAtMostTotal p.key q.key)
  refine List.Perm.eq_of_pairwise ?_ (sorted files) (sorted files')
    ((List.mergeSort_perm _ _).trans (perm.trans (List.mergeSort_perm _ _).symm))
  intro p q inside inside' first second
  have among : p ∈ files := (List.mergeSort_perm _ _).mem_iff.mp inside
  have among' : q ∈ files := perm.mem_iff.mpr ((List.mergeSort_perm _ _).mem_iff.mp inside')
  have symmetric : Std.Symm fun p q : Path => p.parts ≠ q.parts := ⟨fun _ _ => Ne.symm⟩
  by_contra other
  exact apart.forall among among' other (Path.partsTold first second)

theorem soleAlike (perm : paths.Perm o.paths) : sole? find paths = sole? find o.paths := by
  refine Option.ext fun file => ?_
  rw [soleIff, soleIff]
  have same : paths = [file.1] ↔ o.paths = [file.1] :=
    ⟨fun single => (List.singleton_perm.mp (single ▸ perm)).symm, fun single => List.perm_singleton.mp (single ▸ perm)⟩
  rw [same]

theorem regularAlike (perm : paths.Perm o.paths) : (regular find paths).Perm (regular find o.paths) := perm.flatMap_right _

theorem chosenAlike (perm : paths.Perm o.paths) : (chosen find { o with paths }).Perm (chosen find o) := by
  rw [chosen, chosen, soleAlike perm]
  cases sole? find o.paths with
  | some file => exact List.Perm.refl _
  | none => exact (regularAlike perm).filter _

theorem Lists.reordered (lists : Lists find disk o.paths) (perm : paths.Perm o.paths) : Lists find disk paths :=
  ⟨fun path given => lists.met path (perm.mem_iff.mp given), fun path given => lists.isFile path (perm.mem_iff.mp given),
    fun path given => lists.read path (perm.mem_iff.mp given)⟩

theorem Lists.checkAlike (lists : Lists find disk o.paths) (perm : paths.Perm o.paths) (clean : walkFailures disk o.paths = [])
    (apart : (chosen find o).Pairwise fun a b => a.1.parts ≠ b.1.parts) (directory : Path) :
    check disk directory { o with paths } = check disk directory o := by
  have lists' : Lists find disk ({ o with paths } : CheckOptions).paths := lists.reordered perm
  obtain ⟨files, here, selected⟩ := lists.selected
  obtain ⟨files', there, selected'⟩ := lists'.selected
  have chosen' : (chosen find { o with paths }).Perm (chosen find o) := chosenAlike perm
  have alike : files.Perm files' := here.trans ((chosen'.symm.map _).trans there.symm)
  have clean' : walkFailures disk paths = [] := by
    have same : (walkFailures disk paths).Perm (walkFailures disk o.paths) := (perm.flatMap_right _).filterMap _
    rw [clean] at same
    exact same.eq_nil
  have parted : files.Pairwise fun p q => p.parts ≠ q.parts :=
    here.symm.pairwise (List.pairwise_map.mpr apart) fun h => h.symm
  rw [check, check, selected, selected', sortedAlike alike parted, chosen'.length_eq, (regularAlike perm).length_eq, clean,
    clean']

end Order

section Outcomes

variable {directory : Path}

theorem Lists.checkTold (lists : Lists find disk o.paths)
    (narrow : ∀ file ∈ chosen find o, Narrow directory o.maxDepth file.1 file.2) :
    ∃ files reports, files.Perm (failing find o) ∧ Told disk directory o.maxDepth files reports ∧
      check disk directory o = .ok (if walkFailures disk o.paths ++ reports = [] then
        .success (checkMark ++ " All JSX parsed successfully:\n  * Parsed " ++ (chosen find o).length.repr ++
          " files.\n  * Skipped " ++ ((regular find o.paths).length - (chosen find o).length).repr ++
          " files with other extensions.")
      else .failure ("\n".intercalate (walkFailures disk o.paths ++ reports) ++ "\n" ++ cross ++ " " ++
        (failing find o).length.repr ++ " of " ++ (chosen find o).length.repr ++ " JSX files failed to parse.")) := by
  obtain ⟨paths, perm, selected⟩ := lists.selected
  have sorted : (paths.mergeSort Path.atMost).Perm ((chosen find o).map (·.1)) := (List.mergeSort_perm _ _).trans perm
  obtain ⟨files, whole, same⟩ := lists.readAll sorted
  obtain ⟨rs, made, told⟩ := reportsMade (fun file inside => lists.readChosen (whole.mem_iff.mp inside))
    (fun file inside => narrow file (whole.mem_iff.mp inside))
  have failed : (files.filter fun file => ¬Accepted o.maxDepth file.2).Perm (failing find o) := whole.filter _
  have counted : (rs.filterMap id).length = (failing find o).length := told.length_eq.symm.trans failed.length_eq
  have sum : (paths.mergeSort Path.atMost).length = (chosen find o).length := by rw [sorted.length_eq, List.length_map]
  refine ⟨_, _, failed, told, ?_⟩
  rw [same] at made
  rw [check, selected]
  simp only [Check.outcome, made, bind, Except.bind, counted, sum]
  split <;> rfl

theorem Lists.checkAborts (lists : Lists find disk o.paths)
    (wide : ¬∀ file ∈ chosen find o, Narrow directory o.maxDepth file.1 file.2) :
    check disk directory o = .error .padding := by
  obtain ⟨paths, perm, selected⟩ := lists.selected
  refine Abort.unless fun ⟨outcome, ran⟩ => wide fun file inside => ?_
  rw [check, selected] at ran
  simp only [Check.outcome] at ran
  cases made : (paths.mergeSort Path.atMost).mapM (Check.failureOf disk directory o.maxDepth) with
  | error e =>
      rw [made] at ran
      cases ran
  | ok rs =>
      have among : file.1 ∈ paths.mergeSort Path.atMost :=
        List.mem_mergeSort.mpr (perm.mem_iff.mpr (List.mem_map_of_mem inside))
      obtain ⟨-, r, -, -, own⟩ := mapsMember made among
      rw [← lists.readChosen inside]
      exact failureMade.mp ⟨r, own⟩

theorem failingNone : failing find o = [] ↔ ∀ file ∈ chosen find o, Accepted o.maxDepth file.2 := by
  simp [failing, List.filter_eq_nil_iff]

theorem Lists.codeZero (lists : Lists find disk o.paths) : exitCode (check disk directory o) = 0 ↔
    walkFailures disk o.paths = [] ∧ ∀ file ∈ chosen find o, Accepted o.maxDepth file.2 := by
  by_cases narrow : ∀ file ∈ chosen find o, Narrow directory o.maxDepth file.1 file.2
  · obtain ⟨files, reports, perm, told, ended⟩ := lists.checkTold narrow
    have silent : reports = [] ↔ failing find o = [] := by
      rw [← List.length_eq_zero_iff, ← List.length_eq_zero_iff, ← perm.length_eq, told.length_eq]
    rw [ended, ← failingNone, ← silent, ← List.append_eq_nil_iff]
    split
    · exact iff_of_true rfl ‹_›
    · exact iff_of_false Nat.one_ne_zero ‹_›
  · rw [lists.checkAborts narrow]
    exact iff_of_false (Nat.succ_ne_zero 100) fun ⟨_, accepted⟩ =>
      narrow fun file inside => narrowAccepted (accepted file inside)

end Outcomes

/-- Checking accounts for every file that it meets, unless a report cannot be made. -/
theorem checkAccounts (lists : Lists find disk o.paths) (directory : Path) :
    (exitCode (check disk directory o) = 0 ↔
      walkFailures disk o.paths = [] ∧ ∀ file ∈ chosen find o, Accepted o.maxDepth file.2) ∧
    (exitCode (check disk directory o) = 0 → ∃ outcome skipped, check disk directory o = .ok outcome ∧
      (chosen find o).length + skipped = (regular find o.paths).length ∧
      outcome.stdout = checkMark ++ " All JSX parsed successfully:\n  * Parsed " ++ (chosen find o).length.repr ++
        " files.\n  * Skipped " ++ skipped.repr ++ " files with other extensions.\n") ∧
    (exitCode (check disk directory o) ≠ 0 → (∀ file ∈ chosen find o, Narrow directory o.maxDepth file.1 file.2) →
      ∃ outcome files reports, check disk directory o = .ok outcome ∧ outcome.code = 1 ∧ files.Perm (failing find o) ∧
        Told disk directory o.maxDepth files reports ∧
        outcome.stderr = "\n".intercalate (walkFailures disk o.paths ++ reports) ++ "\n" ++ cross ++ " " ++
          (failing find o).length.repr ++ " of " ++ (chosen find o).length.repr ++ " JSX files failed to parse.\n") ∧
    ((¬∀ file ∈ chosen find o, Narrow directory o.maxDepth file.1 file.2) → check disk directory o = .error .padding) ∧
    (walkFailures disk o.paths = [] → (chosen find o).Pairwise (fun a b => a.1.parts ≠ b.1.parts) →
      ∀ paths, paths.Perm o.paths → check disk directory { o with paths } = check disk directory o) := by
  refine ⟨lists.codeZero, fun zero => ?_, fun failed narrow => ?_, lists.checkAborts,
    fun clean apart paths perm => lists.checkAlike perm clean apart directory⟩
  · have narrow : ∀ file ∈ chosen find o, Narrow directory o.maxDepth file.1 file.2 :=
      fun file inside => narrowAccepted ((lists.codeZero.mp zero).2 file inside)
    obtain ⟨files, reports, -, -, ended⟩ := lists.checkTold narrow
    rw [ended] at zero ⊢
    split at zero
    · rw [if_pos ‹_›]
      refine ⟨_, _, rfl, Nat.add_sub_of_le (chosenFew find o), ?_⟩
      rw [Outcome.success, String.append_assoc]
      rfl
    · cases zero
  · obtain ⟨files, reports, perm, told, ended⟩ := lists.checkTold narrow
    rw [ended] at failed ⊢
    split at failed
    · exact absurd rfl failed
    · rw [if_neg ‹_›]
      refine ⟨_, files, reports, rfl, rfl, perm, told, ?_⟩
      rw [Outcome.failure, String.append_assoc]
      rfl

theorem findLists (coherent : ∀ path ∈ paths, ∀ file ∈ filesAt find path, (find file.1).bind Entry.read = file.2) :
    Lists find (.ofFind find) paths where
  met path _ := by
    have same : ((reached find path).map Disk.visit).filterMap Selection.file? = (filesAt find path).map (·.1) := by
      rw [List.filterMap_map, filesAt, List.map_filterMap]
      refine List.filterMap_congr fun place _ => ?_
      obtain ⟨path, e⟩ := place
      cases e <;> rfl
    exact .of_eq same
  isFile path _ := by
    simp only [Disk.ofFind]
    cases find path with
    | error => simp
    | ok e => cases e <;> simp
  read := coherent

theorem checkAccountsForFiles : ∃ (disk : Disk) (find : Path → Except FileError Entry) (o o' : CheckOptions),
    Lists find disk o.paths ∧ exitCode (check disk (.ofString "/") o) = 0 ∧
    (∃ outcome skipped, check disk (.ofString "/") o = .ok outcome ∧ 2 + skipped = 3 ∧ outcome.stdout = checkMark ++
      " All JSX parsed successfully:\n  * Parsed " ++ Nat.repr 2 ++ " files.\n  * Skipped " ++ skipped.repr ++
      " files with other extensions.\n") ∧
    check disk (.ofString "/") { o with paths := o.paths.reverse } = check disk (.ofString "/") o ∧
    Lists find disk o'.paths ∧ (failing find o').length = 1 ∧ (chosen find o').length = 2 ∧
    ∃ outcome lines, check disk (.ofString "/") o' = .ok outcome ∧ outcome.code = 1 ∧ outcome.stderr =
      "\n".intercalate lines ++ "\n" ++ cross ++ " " ++ (failing find o').length.repr ++ " of " ++
      (chosen find o').length.repr ++ " JSX files failed to parse.\n" := by
  let find := Entry.find (.directory [("d".toList, .directory [("a.jsx".toList, .file (.ok "a".toUTF8)),
    ("b.txt".toList, .file (.ok "".toUTF8))]), ("e.jsx".toList, .file (.ok "e".toUTF8)),
    ("<.jsx".toList, .file (.ok "<".toUTF8))]) (.ofString "/")
  let o : CheckOptions := ⟨["jsx".toList], 64, [.ofString "d", .ofString "e.jsx"]⟩
  let o' : CheckOptions := ⟨["jsx".toList], 64, [.ofString "d", .ofString "<.jsx"]⟩
  have lists : Lists find (.ofFind find) o.paths := findLists (by decide +kernel)
  have lists' : Lists find (.ofFind find) o'.paths := findLists (by decide +kernel)
  obtain ⟨zero, counted, -, -, ordered⟩ := checkAccounts lists (.ofString "/")
  obtain ⟨zero', -, failed, -⟩ := checkAccounts lists' (.ofString "/")
  have clean := zero.mpr (by decide +kernel)
  have broken := mt zero'.mp (by decide +kernel)
  have made : ∀ file ∈ chosen find o',
      (Check.failureOf (.ofFind find) (.ofString "/") o'.maxDepth file.1).toOption.isSome = true := by decide +kernel
  have narrow : ∀ file ∈ chosen find o', Narrow (.ofString "/") o'.maxDepth file.1 file.2 := by
    intro file inside
    rw [← lists'.readChosen inside, ← failureMade]
    have own := made file inside
    cases failure : Check.failureOf (.ofFind find) (.ofString "/") o'.maxDepth file.1 with
    | ok r => exact ⟨r, rfl⟩
    | error =>
        rw [failure] at own
        cases own
  have two : (chosen find o).length = 2 := by decide +kernel
  obtain ⟨outcome, skipped, ran, sum, stdout⟩ := counted clean
  rw [two] at sum stdout
  obtain ⟨outcome', files, reports, ran', code, -, -, stderr⟩ := failed broken narrow
  have reversed := ordered (by decide +kernel) (by decide +kernel) _ (List.reverse_perm _)
  exact ⟨_, find, o, o', lists, clean, ⟨outcome, skipped, ran, sum, stdout⟩, reversed, lists', by decide +kernel,
    by decide +kernel, outcome', _, ran', code, stderr⟩

theorem indentedUncounted {n : Nat} (far : 0x10000 ≤ n) :
    let find : Path → Except FileError Entry := fun _ => .ok (.file (.ok (indented n).toUTF8))
    let o : CheckOptions := ⟨["jsx".toList], 64, [.ofString "a.jsx"]⟩
    Lists find (.ofFind find) o.paths ∧ (chosen find o).length = 1 ∧ (failing find o).length = 1 ∧
      check (.ofFind find) (.ofString "/") o = .error .padding := by
  intro find o
  have alone : chosen find o = [(.ofString "a.jsx", .ok (indented n).toUTF8)] := rfl
  have lists : Lists find (.ofFind find) o.paths := by
    refine findLists fun path given file inside => ?_
    obtain rfl : file = (path, .ok (indented n).toUTF8) := by
      simpa [find, filesAt, reached, Entry.places, Entry.contents?] using inside
    rfl
  refine ⟨lists, by rw [alone]; rfl, ?_, lists.checkAborts fun narrow => ?_⟩
  · rw [failing, alone, List.filter_cons_of_pos (by simpa using indentedRejected _ n)]
    rfl
  · exact indentedBeyond far _ _ _ (narrow _ (alone ▸ List.mem_cons_self))

theorem checkEndsUncounted :
    let find : Path → Except FileError Entry := fun _ => .ok (.file (.ok (indented 0x10000).toUTF8))
    let o : CheckOptions := ⟨["jsx".toList], 64, [.ofString "a.jsx"]⟩
    Lists find (.ofFind find) o.paths ∧ exitCode (check (.ofFind find) (.ofString "/") o) ≠ 0 ∧
      (failing find o).length = 1 ∧ (chosen find o).length = 1 ∧
      ¬∃ outcome lines, check (.ofFind find) (.ofString "/") o = .ok outcome ∧
        outcome.stderr = lines ++ cross ++ " 1 of 1 JSX files failed to parse.\n" := by
  obtain ⟨lists, one, failed, aborts⟩ := indentedUncounted (Nat.le_refl 0x10000)
  refine ⟨lists, ?_, failed, one, ?_⟩
  · rw [aborts]
    exact Nat.succ_ne_zero 100
  · rintro ⟨outcome, lines, same, -⟩
    rw [aborts] at same
    cases same

end Command

end JsxTree
