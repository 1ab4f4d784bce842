import JsxTree.ParseError.Report
import JsxTree.Proofs.Rejections

/-! The lines that the report on an error shows. Reports split the text at line feeds alone, scanners at every line break: as
far as both agree on the lines, an excerpt is the line that its span begins on, with the mark under the character there. -/
namespace JsxTree

namespace Text

variable {cs line front back : List Char} {c : Char}

theorem dropReturnSplits (line : List Char) : line = dropReturn line ∨ line = dropReturn line ++ ['\r'] := by
  unfold dropReturn
  split
  · rename_i last
    obtain ⟨front, rfl⟩ := List.getLast?_eq_some_iff.mp last
    exact .inr (by simp)
  · exact .inl rfl

theorem breaksPlain (plain : ∀ c ∈ line, isLineBreak c = false) (cs : List Char) : breaks (line ++ cs) = breaks cs := by
  induction line with
  | nil => rfl
  | cons c line ih =>
      obtain ⟨first, more⟩ := List.forall_mem_cons.mp plain
      rw [List.cons_append, breaksCons, ih more, first]
      simp

theorem breaksNone (plain : ∀ c ∈ line, isLineBreak c = false) : breaks line = 0 := by
  rw [← List.append_nil line, breaksPlain plain]
  rfl

theorem lastLinePlain (plain : ∀ c ∈ line, isLineBreak c = false) : lastLine line = line := by
  have whole : line.reverse.takeWhile (!isLineBreak ·) = line.reverse :=
    List.takeWhile_eq_self_iff.mpr fun c inside => by simp [plain c (List.mem_reverse.mp inside)]
  rw [lastLine, whole, List.reverse_reverse]

theorem lastLineBehind (h : isLineBreak c = true) (front cs : List Char) : lastLine (front ++ c :: cs) = lastLine cs := by
  induction cs using List.reverseRecOn with
  | nil => exact lastLineBreak front h
  | append_singleton cs e ih =>
      rw [← List.cons_append, ← List.append_assoc]
      cases line : isLineBreak e with
      | true => rw [lastLineBreak _ line, lastLineBreak _ line]
      | false => rw [lastLineMore _ line, lastLineMore _ line, ih]

def EndsLine (ending : List Char) : Prop := ending = ['\n'] ∨ ending = ['\r', '\n']

variable {ending rest : List Char}

theorem EndsLine.breaks (h : EndsLine ending) (plain : ∀ c ∈ line, isLineBreak c = false) (cs : List Char) :
    breaks (line ++ (ending ++ cs)) = breaks cs + 1 := by
  rw [breaksPlain plain]
  rcases h with rfl | rfl
  · exact breaksCons '\n' cs
  · rfl

theorem EndsLine.lastLine (h : EndsLine ending) (line cs : List Char) : lastLine (line ++ (ending ++ cs)) = lastLine cs := by
  rcases h with rfl | rfl
  · exact lastLineBehind rfl line cs
  · exact (congrArg Text.lastLine (List.append_cons line '\r' ('\n' :: cs))).trans (lastLineBehind rfl _ cs)

theorem EndsLine.stops (h : EndsLine ending) (cs : List Char) : (ending ++ cs).takeWhile (!isLineBreak ·) = [] := by
  rcases h with rfl | rfl <;> rfl

theorem EndsLine.split (h : EndsLine ending) (seamed : Lexeme.Seamed front back)
    (whole : front ++ back = line ++ (ending ++ rest)) :
    (∃ more, line = front ++ more ∧ back = more ++ (ending ++ rest)) ∨
      ∃ later, front = line ++ (ending ++ later) ∧ rest = later ++ back := by
  rcases List.append_eq_append_iff.mp whole with ⟨more, rfl, same⟩ | ⟨extra, rfl, same⟩
  · exact .inl ⟨more, rfl, same⟩
  rcases List.append_eq_append_iff.mp same with ⟨later, rfl, beyond⟩ | ⟨more, split, rfl⟩
  · exact .inr ⟨later, rfl, beyond⟩
  cases extra with
  | nil => exact .inl ⟨[], by simp, by rw [split]; rfl⟩
  | cons e extra =>
      cases more with
      | nil => exact .inr ⟨[], by simp [split], rfl⟩
      | cons e' more =>
          -- Within the ending of two characters there is no seam.
          rcases h with rfl | rfl
          · simp at split
          · obtain ⟨rfl, rfl, rfl, rfl⟩ : e = '\r' ∧ extra = [] ∧ e' = '\n' ∧ more = [] := by
              cases extra <;> simp_all
            have feed := seamed (by simp) '\n' rfl
            cases feed

def Plain (n : Nat) (cs : List Char) : Prop := ∀ line ∈ (lines cs).take n, ∀ c ∈ line, isLineBreak c = false

theorem lineWithin (plain : ∀ c ∈ front ++ back, isLineBreak c = false) (stops : rest.takeWhile (!isLineBreak ·) = []) :
    front ++ back = lastLine front ++ (back ++ rest).takeWhile (!isLineBreak ·) := by
  obtain ⟨before, behind⟩ := List.forall_mem_append.mp plain
  rw [lastLinePlain before, List.takeWhile_append_of_pos fun c inside => by simp [behind c inside], stops, List.append_nil]

theorem linesEnded {c feed : Char} {cs : List Char} (ended : (c :: cs).dropWhile (· != '\n') = feed :: rest) :
    ∃ ending, EndsLine ending ∧ c :: cs = dropReturn ((c :: cs).takeWhile (· != '\n')) ++ (ending ++ rest) := by
  have whole := List.takeWhile_append_dropWhile (p := (· != '\n')) (l := c :: cs)
  have stopped := List.head?_dropWhile_not (· != '\n') (c :: cs)
  rw [ended] at whole stopped
  obtain rfl : feed = '\n' := by simpa using stopped
  rcases dropReturnSplits ((c :: cs).takeWhile (· != '\n')) with kept | dropped
  · exact ⟨['\n'], .inl rfl, by rw [← kept]; exact whole.symm⟩
  · refine ⟨['\r', '\n'], .inr rfl, ?_⟩
    rw [dropped, List.append_assoc] at whole
    exact whole.symm

theorem linesAt (seamed : Lexeme.Seamed front back) (plain : Plain (breaks front + 1) (front ++ back))
    (shown : (lines (front ++ back))[breaks front]? = some line) :
    line = lastLine front ++ back.takeWhile (!isLineBreak ·) := by
  unfold Plain at plain
  generalize whole : front ++ back = cs at plain shown
  fun_induction lines cs generalizing front with
  | case1 => cases shown
  | case2 c cs unended =>
      rw [List.getElem?_singleton] at shown
      split at shown
      · cases shown
        rw [List.take_succ_cons, List.take_nil] at plain
        have clear := List.forall_mem_singleton.mp plain
        rw [← whole] at clear ⊢
        simpa using @lineWithin front back [] clear rfl
      · cases shown
  | case3 c cs feed rest ended ih =>
      obtain ⟨ending, ends, split⟩ := linesEnded ended
      rw [List.take_succ_cons] at plain
      obtain ⟨first, others⟩ := List.forall_mem_cons.mp plain
      -- The seam is within the first line, or behind what ends it; then the rest is about the lines that are left.
      rcases ends.split seamed (whole.trans split) with ⟨more, same, rfl⟩ | ⟨later, rfl, rfl⟩
      · rw [same] at first shown
        have none := breaksNone (List.forall_mem_append.mp first).1
        rw [none, List.getElem?_cons_zero, Option.some.injEq] at shown
        rw [← shown]
        exact lineWithin first (ends.stops rest)
      · rw [ends.breaks first] at others shown
        rw [ends.lastLine]
        refine ih (fun last => seamed ?_) rfl others shown
        rw [List.getLast?_append, List.getLast?_append, last]
        rfl

end Text

namespace Excerpt

def Points (drawn : String) (number : Nat) (line : List Char) (column : Nat) (mark : String) : Prop :=
  ∃ above indent more, drawn = above ++ (blanks indent ++ number.repr ++ " | " ++ String.ofList line ++ "\n") ++
    (blanks (indent + number.repr.length) ++ " | " ++ blanks column ++ mark ++ more)

theorem Points.shows {drawn mark : String} {number column : Nat} {line : List Char} (h : Points drawn number line column mark) :
    line ⊆ drawn.toList := by
  obtain ⟨above, indent, more, rfl⟩ := h
  intro c inside
  simp [inside]

/-- The line drawn is the one of the source that the span begins on, and the mark is under the character there. -/
def Locates (source : String) (span : Span) (drawn mark : String) : Prop :=
  ∃ front back, source.toList = front ++ back ∧ Text.byteLength front = span.start.offset ∧
    Points drawn (Text.breaks front + 1) (Text.lastLine front ++ back.takeWhile (!Text.isLineBreak ·))
      (Text.lastLine front).length mark

theorem blanksAdd (m n : Nat) : blanks (m + n) = blanks m ++ blanks n := by
  rw [blanks, ← List.replicate_append_replicate, String.ofList_append, blanks, blanks]

theorem widthSplits (x : Excerpt) : x.width - x.number.repr.length + x.number.repr.length = x.width :=
  Nat.sub_add_cancel (Nat.le_max_right _ _)

structure Draws (draw : Excerpt → Span → Except Abort String) (mark : String) : Prop where
  near {x : Excerpt} {span : Span} (near : span.start.column < 0x10000) :
    ∃ drawn, draw x span = .ok drawn ∧ Points drawn x.number x.line span.start.column mark
  far {x : Excerpt} {span : Span} (far : ¬span.start.column < 0x10000) : draw x span = .error .padding

theorem markedNear {column : Nat} (near : column < 0x10000) (x : Excerpt) (mark : String) :
    x.marked column mark = .ok (blanks x.width ++ " | " ++ blanks column ++ mark ++ "\n") := by
  rw [marked, padding, if_pos near]
  rfl

theorem markedFar {column : Nat} (far : ¬column < 0x10000) (x : Excerpt) (mark : String) :
    x.marked column mark = .error .padding := by
  rw [marked, padding, if_neg far]
  rfl

theorem underlinedDraws : Draws underlined "^" where
  near {x span} near := by
    obtain ⟨carets, drawn⟩ : ∃ carets, x.underlined span = .ok (blanks x.width ++ " |\n" ++ x.numbered ++
        (blanks x.width ++ " | " ++ blanks span.start.column ++ String.ofList (List.replicate (carets + 1) '^') ++ "\n")) :=
      ⟨_, by rw [underlined, markedNear near, Nat.sub_add_cancel (Nat.le_max_left _ _)]; rfl⟩
    refine ⟨_, drawn, blanks x.width ++ " |\n", x.width - x.number.repr.length,
      String.ofList (List.replicate carets '^') ++ "\n", ?_⟩
    have mark : String.ofList (List.replicate (carets + 1) '^') = "^" ++ String.ofList (List.replicate carets '^') := by
      rw [List.replicate_succ, ← List.singleton_append, String.ofList_append]
    rw [numbered, mark, x.widthSplits]
    simp only [String.append_assoc]
  far {x span} far := by
    rw [underlined, markedFar far]
    rfl

theorem pointedDraws : Draws pointed "-" where
  near {x span} near := by
    have drawn : x.pointed span = .ok (blanks 5 ++ x.numbered ++ blanks 5 ++
        (blanks x.width ++ " | " ++ blanks span.start.column ++ "-" ++ "\n")) := by
      rw [pointed, markedNear near]
      rfl
    refine ⟨_, drawn, "", 5 + (x.width - x.number.repr.length), "\n", ?_⟩
    rw [numbered, Nat.add_assoc, x.widthSplits, blanksAdd, blanksAdd]
    simp only [String.append_assoc, String.empty_append]
  far {x span} far := by
    rw [pointed, markedFar far]
    rfl

end Excerpt

section Aborts

variable {ε α β : Type} {f : α → Except ε β} {as : List α} {bs : List β}

theorem mapsEach : as.mapM f = .ok bs ↔ List.Forall₂ (fun a b => f a = .ok b) as bs := by
  induction as generalizing bs with
  | nil => simp [pure, Except.pure, eq_comm]
  | cons a as ih =>
      rw [List.mapM_cons, List.forall₂_cons_left_iff]
      cases first : f a with
      | error e => simp [bind, Except.bind]
      | ok b =>
          cases rest : as.mapM f with
          | error e => simp [bind, Except.bind, ← ih, rest]
          | ok bs' => simp [bind, Except.bind, pure, Except.pure, ← ih, rest, eq_comm]

theorem mapsAll (each : ∀ a ∈ as, ∃ b, f a = .ok b) : ∃ bs, as.mapM f = .ok bs := by
  induction as with
  | nil => exact ⟨[], rfl⟩
  | cons a as ih =>
      obtain ⟨own, others⟩ := List.forall_mem_cons.mp each
      obtain ⟨b, own⟩ := own
      obtain ⟨bs, others⟩ := ih others
      exact ⟨b :: bs, mapsEach.mpr (.cons own (mapsEach.mp others))⟩

theorem mapsMember {a : α} (made : as.mapM f = .ok bs) (inside : a ∈ as) :
    ∃ front b back, bs = front ++ b :: back ∧ f a = .ok b := by
  have each := mapsEach.mp made
  clear made
  induction each with
  | nil => cases inside
  | @cons a' b' as bs own _ ih =>
      rcases List.mem_cons.mp inside with rfl | later
      · exact ⟨[], b', bs, rfl, own⟩
      · obtain ⟨front, b, back, rfl, made⟩ := ih later
        exact ⟨b' :: front, b, back, rfl, made⟩

theorem Abort.unless {r : Except Abort α} (none : ¬∃ a, r = .ok a) : r = .error .padding := by
  cases r with
  | ok a => exact absurd ⟨a, rfl⟩ none
  | error e => cases e; rfl

end Aborts

namespace ParseError

/-- No excerpt of the report has its mark too far to the right. -/
def Narrow (source : String) (e : ParseError) : Prop :=
  ∀ span ∈ e.spans, (Excerpt.at? source span).isSome → span.start.column < 0x10000

/-- The excerpts in the report on an error, each with its mark. -/
inductive Prints (source : String) (e : ParseError) : Span → String → String → Prop where
  | own {x drawn} (shown : Excerpt.at? source e.span = some x) (draws : x.underlined e.span = .ok drawn) :
      Prints source e e.span "^" drawn
  | noted {n span x drawn} (note : n ∈ e.notes) (pointed : n.span = some span) (shown : Excerpt.at? source span = some x)
      (draws : x.pointed span = .ok drawn) : Prints source e span "-" drawn

variable {source drawn mark : String} {file : Option String} {config : Config} {e : ParseError} {span : Span} {n : Note}
  {draw : Excerpt → Span → Except Abort String}

theorem excerptMade (draws : Excerpt.Draws draw mark) : (∃ text, excerptOf (some source) draw span = .ok text) ↔
    ((Excerpt.at? source span).isSome → span.start.column < 0x10000) := by
  rw [excerptOf, Option.bind_some]
  cases Excerpt.at? source span with
  | none => simp
  | some x =>
      by_cases near : span.start.column < 0x10000
      · obtain ⟨text, drawn, -⟩ := draws.near (x := x) near
        simp [drawn, near]
      · simp [draws.far near, near]

theorem noteMade : (∃ text, n.report (some source) = .ok text) ↔
    ∀ span, n.span = some span → (Excerpt.at? source span).isSome → span.start.column < 0x10000 := by
  have mapped : ∀ {r : Except Abort String} {g : String → String}, (∃ text, r.map g = .ok text) ↔ ∃ text, r = .ok text := by
    intro r g
    cases r <;> simp [Except.map]
  rw [Note.report, mapped]
  cases n.span with
  | none => simp
  | some span => simpa using excerptMade Excerpt.pointedDraws

theorem reportParts (e : ParseError) (source : Option String) {own : String} {notes : List String}
    (drawn : excerptOf source Excerpt.underlined e.span = .ok own) (noted : e.notes.mapM (Note.report source) = .ok notes) :
    e.report source = .ok ("error: " ++ e.message ++ "\n  --> " ++ e.location ++ "\n" ++ own ++ String.join notes) := by
  rw [report, drawn, noted]
  rfl

theorem narrowParts (narrow : e.Narrow source) : ∃ own notes,
    excerptOf (some source) Excerpt.underlined e.span = .ok own ∧ e.notes.mapM (Note.report (some source)) = .ok notes := by
  obtain ⟨here, there⟩ := List.forall_mem_cons.mp narrow
  obtain ⟨own, drawn⟩ := (excerptMade Excerpt.underlinedDraws).mpr here
  obtain ⟨notes, noted⟩ := mapsAll fun n inside => noteMade.mpr fun span pointed =>
    there span (List.mem_filterMap.mpr ⟨n, inside, pointed⟩)
  exact ⟨own, notes, drawn, noted⟩

theorem reportNarrow : (∃ text, e.report (some source) = .ok text) ↔ e.Narrow source := by
  constructor
  · rintro ⟨text, reported⟩
    rw [report] at reported
    cases drawn : excerptOf (some source) Excerpt.underlined e.span with
    | error => rw [drawn] at reported; cases reported
    | ok own =>
        cases noted : e.notes.mapM (Note.report (some source)) with
        | error => rw [drawn, noted] at reported; cases reported
        | ok notes =>
            refine List.forall_mem_cons.mpr ⟨(excerptMade Excerpt.underlinedDraws).mp ⟨own, drawn⟩, fun span inside => ?_⟩
            obtain ⟨n, note, pointed⟩ := List.mem_filterMap.mp inside
            obtain ⟨-, text, -, -, made⟩ := mapsMember noted note
            exact noteMade.mp ⟨text, made⟩ span pointed
  · intro narrow
    obtain ⟨own, notes, drawn, noted⟩ := narrowParts narrow
    exact ⟨_, e.reportParts _ drawn noted⟩

theorem reportWide (wide : ¬e.Narrow source) : e.report (some source) = .error .padding :=
  Abort.unless (mt reportNarrow.mp wide)

theorem Prints.spanned (h : e.Prints source span mark drawn) : span ∈ e.spans := by
  cases h with
  | own => exact List.mem_cons_self
  | noted note pointed => exact List.mem_cons_of_mem _ (List.mem_filterMap.mpr ⟨_, note, pointed⟩)

theorem Prints.reported (h : e.Prints source span mark drawn) (narrow : e.Narrow source) :
    ∃ before after, e.report (some source) = .ok (before ++ drawn ++ after) := by
  obtain ⟨own, notes, above, noted⟩ := narrowParts narrow
  have whole := e.reportParts _ above noted
  cases h with
  | own shown draws =>
      rw [excerptOf, Option.bind_some, shown] at above
      obtain rfl : own = drawn := Except.ok.inj (above.symm.trans draws)
      exact ⟨_, _, whole⟩
  | @noted n span x _ note pointed shown draws =>
      obtain ⟨front, text, back, rfl, made⟩ := mapsMember noted note
      have parts : n.report (some source) = .ok ("   = " ++ n.kind.label ++ ": " ++ n.message ++ "\n" ++ drawn) := by
        simp only [Note.report, pointed, excerptOf, Option.bind_some, shown, draws]
        rfl
      obtain rfl := Except.ok.inj (made.symm.trans parts)
      refine ⟨"error: " ++ e.message ++ "\n  --> " ++ e.location ++ "\n" ++ own ++ String.join front ++
        ("   = " ++ n.kind.label ++ ": " ++ n.message ++ "\n"), String.join back, ?_⟩
      rw [whole, String.join_append, String.join_cons]
      simp only [String.append_assoc]

theorem Prints.excerpt (h : e.Prints source span mark drawn) : ∃ x, Excerpt.at? source span = some x ∧
    Excerpt.Points drawn x.number x.line span.start.column mark := by
  have pointing : ∀ {draw mark} {x : Excerpt} {span : Span} {drawn : String}, Excerpt.Draws draw mark → draw x span = .ok drawn →
      Excerpt.Points drawn x.number x.line span.start.column mark := by
    intro draw mark x span drawn draws made
    by_cases near : span.start.column < 0x10000
    · obtain ⟨text, same, points⟩ := draws.near (x := x) near
      obtain rfl := Except.ok.inj (made.symm.trans same)
      exact points
    · rw [draws.far near] at made
      cases made
  cases h with
  | own shown draws => exact ⟨_, shown, pointing Excerpt.underlinedDraws draws⟩
  | noted _ _ shown draws => exact ⟨_, shown, pointing Excerpt.pointedDraws draws⟩

/-- Every excerpt in the report on an error is where its span begins, with lines as a scanner sees them, if no line displayed
up to it has a line break within. -/
theorem reportPoints (failed : parse source config file = .error (.error e)) (prints : e.Prints source span mark drawn)
    (plain : Text.Plain (span.start.line + 1) source.toList) :
    (e.Narrow source → ∃ before after, e.report (some source) = .ok (before ++ drawn ++ after)) ∧
      Excerpt.Locates source span drawn mark := by
  obtain ⟨x, excerpt, points⟩ := prints.excerpt
  obtain ⟨c, c', ⟨front, whole, place⟩, unsplit, -, rfl⟩ := parseErrorSeated failed span prints.spanned
  have here : c.position = Position.behind front := by rw [Cursor.position, place, Place.counted]
  have seamed : Lexeme.Seamed front c.rest := fun last =>
    unsplit (by rw [place, Place.pastOrigin]; exact decide_eq_true last)
  rw [Excerpt.at?, Option.map_eq_some_iff] at excerpt
  obtain ⟨line, shown, rfl⟩ := excerpt
  dsimp only at plain shown points
  rw [here] at plain shown points
  rw [whole] at plain shown
  have same := Text.linesAt seamed plain shown
  refine ⟨prints.reported, front, c.rest, whole, ?_, ?_⟩
  · rw [here]
    rfl
  · rw [← same]
    exact points

theorem reportPointsClosing : ∃ e drawn, parse "<a>\r\n</b>" {} none = .error (.error e) ∧
    e.Prints "<a>\r\n</b>" e.span "^" drawn ∧ Text.Plain (e.span.start.line + 1) "<a>\r\n</b>".toList ∧
    (∃ before after, e.report (some "<a>\r\n</b>") = .ok (before ++ drawn ++ after)) ∧
    Excerpt.Locates "<a>\r\n</b>" e.span drawn "^" := by
  let e := ParseError.mk "closing tag does not match opening tag" ⟨⟨1, 2, some 2, 7⟩, ⟨1, 3, some 3, 8⟩, none⟩
    (.mismatchedClosingTag "a" "b")
    [⟨.general, "opening tag `a` here", some ⟨⟨0, 1, some 1, 1⟩, ⟨0, 2, some 2, 2⟩, none⟩⟩,
      ⟨.help, "close the element with `</a>`", none⟩]
  have failed : parse "<a>\r\n</b>" {} none = .error (.error e) := Parser.refusedOf (by decide +kernel)
  have shown : Excerpt.at? "<a>\r\n</b>" e.span = some ⟨2, "</b>".toList⟩ := by decide +kernel
  have lines : Text.lines "<a>\r\n</b>".toList = ["<a>".toList, "</b>".toList] := by decide +kernel
  have plain : Text.Plain (e.span.start.line + 1) "<a>\r\n</b>".toList := by
    rw [Text.Plain, lines]
    simp [e, Text.isLineBreak]
  obtain ⟨drawn, draws⟩ : ∃ drawn, Excerpt.underlined ⟨2, "</b>".toList⟩ e.span = .ok drawn :=
    (Excerpt.underlinedDraws.near (by decide)).imp fun _ drawn => drawn.1
  have prints : e.Prints "<a>\r\n</b>" e.span "^" drawn := .own shown draws
  have narrow : e.Narrow "<a>\r\n</b>" := by simp [Narrow, spans, e]
  obtain ⟨reported, located⟩ := reportPoints failed prints plain
  exact ⟨e, drawn, failed, prints, plain, reported narrow, located⟩

theorem reportMisplaced : ∃ e drawn, parse "\r)\nb" {} none = .error (.error e) ∧ e.Prints "\r)\nb" e.span "^" drawn ∧
    ¬Excerpt.Locates "\r)\nb" e.span drawn "^" := by
  let e := ParseError.mk "unexpected token `)`" ⟨⟨1, 0, some 0, 1⟩, ⟨1, 1, some 1, 2⟩, none⟩
    (.unexpectedToken ")") []
  have failed : parse "\r)\nb" {} none = .error (.error e) := Parser.refusedOf (by decide +kernel)
  have shown : Excerpt.at? "\r)\nb" e.span = some ⟨2, ['b']⟩ := by decide +kernel
  have draws : Excerpt.underlined ⟨2, ['b']⟩ e.span = .ok "   |\n 2 | b\n   | ^\n" := by decide +kernel
  refine ⟨e, _, failed, .own shown draws, ?_⟩
  rintro ⟨front, back, whole, offset, points⟩
  have cut := Text.takeBytesAppend front back
  rw [← whole, offset] at cut
  obtain rfl : ['\r'] = front := Option.some.inj cut
  have rest : ['\r', ')', '\n', 'b'] = '\r' :: back := whole
  obtain rfl := (List.cons.inj rest).2
  have inside : ')' ∈ "   |\n 2 | b\n   | ^\n".toList := points.shows (by decide)
  exact absurd inside (by decide +kernel)

end ParseError

end JsxTree
