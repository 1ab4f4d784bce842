import JsxTree.Proofs.Operands
import JsxTree.Proofs.Positions

/-! Binary operators. However many stand between operands and however they are mixed, the six levels of the grammar
come to the one tree that the ranks of its operators allow. -/
namespace JsxTree.Grammar

section Groups

def rank? : String → Option Nat
  | "||" | "??" => some 1
  | "&&" => some 2
  | "===" | "!==" | "==" | "!=" => some 3
  | "<=" | ">=" | "<" | ">" => some 4
  | "+" | "-" => some 5
  | "*" | "/" | "%" => some 6
  | _ => none

def joinOf (rank : Nat) : Parser.Join := if rank ≤ 2 then .logical else .binary

def rootRank? (n : Node) : Option Nat :=
  match n.form with
  | .binary o _ _ | .logical o _ _ => rank? o
  | _ => none

inductive Piece where
  | operand (n : Node)
  | operator (o : String)

/-- A tree that reads in order as these pieces. To the left of an operator stand operators as tight or tighter, to the
right only tighter ones, and the node spans from its first operand to its last. -/
inductive Grouped (file : Option String) : List Piece → Node → Prop where
  | operand {n} (single : rootRank? n = none) : Grouped file [.operand n] n
  | operation {o k l r ps qs} (known : rank? o = some k) (left : Grouped file ps l) (right : Grouped file qs r)
      (loose : ∀ i ∈ rootRank? l, k ≤ i) (tight : ∀ j ∈ rootRank? r, k < j) :
      Grouped file (ps ++ .operator o :: qs) ⟨(joinOf k).form o l r, l.span.start, r.span.stop, file⟩

theorem rootRankJoin (join : Parser.Join) (o : String) (l r : Node) (span : Span) :
    rootRank? ⟨join.form o l r, span⟩ = rank? o := by
  cases join <;> rfl

end Groups

section Unique

variable {file : Option String} {ps qs ps' qs' : List Piece} {n n' : Node} {o o' : String} {k k' : Nat}

def Tight (k : Nat) (ps : List Piece) : Prop := ∀ o, .operator o ∈ ps → ∃ j, rank? o = some j ∧ k ≤ j

theorem Grouped.tight (h : Grouped file ps n) (root : ∀ i ∈ rootRank? n, k ≤ i) : Tight k ps := by
  induction h generalizing k with
  | operand => simp [Tight]
  | @operation o i l r ps qs known _ _ loose tight left right =>
      have above : k ≤ i := root i (by rw [rootRankJoin]; exact known)
      intro o' inside
      rcases List.mem_append.mp inside with before | after
      · exact left (fun j found => above.trans (loose j found)) o' before
      · rcases List.mem_cons.mp after with same | after
        · cases same
          exact ⟨i, known, above⟩
        · exact right (fun j found => above.trans (Nat.le_of_lt (tight j found))) o' after

theorem rootLast (known : rank? o = some k) (known' : rank? o' = some k') (right : Tight (k + 1) qs) (left' : Tight k' ps')
    {as : List Piece} (before : ps' = ps ++ as) (after : .operator o :: qs = as ++ .operator o' :: qs') : as = [] := by
  cases as with
  | nil => rfl
  | cons a as =>
      obtain ⟨rfl, rfl⟩ := List.cons.inj after
      obtain ⟨i, found, above⟩ := right o' (by simp)
      obtain ⟨j, found', above'⟩ := left' o (by simp [before])
      rw [known'] at found
      rw [known] at found'
      cases found
      cases found'
      omega

theorem Grouped.unique (h : Grouped file ps n) (h' : Grouped file ps n') : n = n' := by
  induction h generalizing n' with
  | @operand n single =>
      generalize pieces : [Piece.operand n] = ps at h'
      cases h' with
      | operand => cases pieces; rfl
      | @operation o k l r ps qs known =>
          have inside : Piece.operator o ∈ [Piece.operand n] := by simp [pieces]
          simp at inside
  | @operation o k l r ps qs known hl hr loose tight left right =>
      generalize pieces : ps ++ Piece.operator o :: qs = ws at h'
      cases h' with
      | @operand n single =>
          have inside : Piece.operator o ∈ ps ++ Piece.operator o :: qs := by simp
          rw [pieces] at inside
          simp at inside
      | @operation o' k' l' r' ps' qs' known' hl' hr' loose' tight' =>
          have apart := hr.tight tight
          have apart' := hr'.tight tight'
          -- Both roots are the last operator of the loosest rank, so that the pieces are cut at the same place.
          have same : ps = ps' ∧ Piece.operator o :: qs = Piece.operator o' :: qs' := by
            rcases List.append_eq_append_iff.mp pieces with ⟨as, before, after⟩ | ⟨as, before, after⟩
            · cases rootLast known known' apart (hl'.tight loose') before after
              exact ⟨by simpa using before.symm, after⟩
            · cases rootLast known' known apart' (hl.tight loose) before after
              exact ⟨by simpa using before, after.symm⟩
          obtain ⟨rfl, rest⟩ := same
          cases rest
          rw [known] at known'
          cases known'
          rw [left hl', right hr']

end Unique

section Climbing

open Cursor JsxTree.Parser

variable {x : Setting} {d : Nat} {b c : Cursor} {s o : String} {n : Node} {front ps : List Piece} {level : Level}
  {ls tighter : List Level}

inductive Follows (file : Option String) : Cursor → List Piece → Prop where
  | done {c : Cursor} (nothing : c.next? .script = none) : Follows file c []
  | more {c c₁ c₂ : Cursor} {o s : String} {k : Nat} {ps : List Piece} (known : rank? o = some k) (operator : c.Takes .script o c₁)
      (operand : c₁.next? .script = some (.identifier s, c₂)) (more : Follows file c₂ ps) :
      Follows file c (.operator o :: .operand ⟨.identifier s, c₁.spanTo c₂ file⟩ :: ps)

theorem rankLevel {k : Nat} (known : rank? o = some k) : ∃ level ∈ levels, o ∈ level.operators := by
  unfold rank? at known
  split at known <;> simp [levels] at known ⊢

theorem levelRank : ∀ ls ∈ levels.tails, ∀ level ∈ ls.head?, ∀ o ∈ level.operators,
    rank? o = some (7 - ls.length) ∧ level.join = joinOf (7 - ls.length) := by decide

theorem Follows.stops {file : Option String} (h : Follows file c ps) {os : List String}
    (apart : ∀ o more, (rank? o).isSome → ps = .operator o :: more → o ∉ os) : c.Stops os .script := by
  cases h with
  | done nothing => exact stopsNothing nothing
  | more known operator =>
      refine stopsOf operator fun p listed same => ?_
      cases same
      exact apart _ _ (by simp [known]) rfl listed

def Beyond (ls : List Level) (left : List Piece) : Prop :=
  ∀ o more, left = .operator o :: more → ∀ level ∈ ls, o ∉ level.operators

structure Climbed (x : Setting) (ls : List Level) (ps left : List Piece) (n : Node) (b : Cursor) : Prop where
  grouped : Grouped x.file ps n
  root : ∀ k ∈ rootRank? n, 7 ≤ k + ls.length
  stop : n.span.stop = b.position
  follows : Follows x.file b left

theorem Climbed.join {qs left : List Piece} {l r : Node} {b₁ : Cursor} (known : level :: tighter <:+ levels)
    (inside : o ∈ level.operators) (first : Climbed x (level :: tighter) front ps l b) (second : Climbed x tighter qs left r b₁) :
    Climbed x (level :: tighter) (front ++ .operator o :: qs) left ⟨level.join.form o l r, l.spanUpTo b₁ x.file⟩ b₁ := by
  obtain ⟨rank, join⟩ := levelRank _ ((List.mem_tails _ _).mpr known) level rfl o inside
  have few : tighter.length + 1 ≤ 6 := known.length_le
  rw [List.length_cons] at rank join
  have loose : ∀ i ∈ rootRank? l, 7 - (tighter.length + 1) ≤ i := by
    intro i root
    have := first.root i root
    rw [List.length_cons] at this
    omega
  have tight : ∀ j ∈ rootRank? r, 7 - (tighter.length + 1) < j := by
    intro j root
    have := second.root j root
    omega
  have grouped := first.grouped.operation rank second.grouped loose tight
  rw [second.stop, ← join] at grouped
  refine ⟨grouped, fun k root => ?_, rfl, second.follows⟩
  rw [rootRankJoin, rank] at root
  cases root
  rw [List.length_cons]
  omega

def Climbs (x : Setting) (phrase : Node → Phrase) (ls : List Level) (d : Nat) (front ps : List Piece) (c : Cursor) : Prop :=
  ∃ n taken left b, ps = taken ++ left ∧ Reads x (phrase n) .script d c b ∧ Climbed x ls (front ++ taken) left n b ∧
    Beyond ls left

def Ascends (x : Setting) (ls : List Level) (d : Nat) : Prop :=
  ∀ ⦃c c₁ s ps⦄, c.next? .script = some (.identifier s, c₁) → Follows x.file c₁ ps →
    Climbs x (.ladder ls) ls d [.operand ⟨.identifier s, c.spanTo c₁ x.file⟩] ps c

theorem ascendsBottom : Ascends x [] d := by
  intro c c₁ s ps next follows
  have stops : c₁.Stops [".", "[", "("] .script := follows.stops fun o _ known _ inside => by
    simp only [List.mem_cons, List.not_mem_nil, or_false] at inside
    obtain rfl | rfl | rfl := inside <;> cases known
  have unsigned : c.Stops prefixOperators .script := stopsOf next fun _ _ same => by cases same
  have single : rootRank? ⟨.identifier s, c.spanTo c₁ x.file⟩ = none := rfl
  refine ⟨_, [], ps, c₁, rfl, .bottom (.plainUnary unsigned (.chain (.identifier next) (.noSuffix stops))), ?_, by simp [Beyond]⟩
  exact ⟨.operand single, by simp [single], rfl, follows⟩

theorem climbOperands (known : level :: tighter <:+ levels) (operands : Ascends x tighter d)
    (first : Climbed x (level :: tighter) front ps n b) (apart : Beyond tighter ps) :
    Climbs x (.operands level tighter n) (level :: tighter) d front ps b := by
  -- By the pieces left: each operand takes at least the operator in front of it and itself.
  induction size : ps.length using Nat.strong_induction_on generalizing front ps n b with
  | _ size' ih =>
  have unread (beyond : Beyond (level :: tighter) ps) : Climbs x (.operands level tighter n) (level :: tighter) d front ps b :=
    ⟨n, [], ps, b, rfl, .noOperand (first.follows.stops fun _ _ _ same => beyond _ _ same level List.mem_cons_self), by simpa using first, beyond⟩
  cases first.follows with
  | done nothing => exact unread (by simp [Beyond])
  | @more _ c₁ c₂ o s _ more _ operator operand following =>
      by_cases inside : o ∈ level.operators
      · obtain ⟨r, taken, left, b₁, whole, reads, climbed, beyond⟩ := operands operand following
        have both := first.join known inside climbed
        have shorter : left.length < size' := by
          rw [← size, whole]
          simp
          omega
        obtain ⟨n', taken', left', b', whole', reads', climbed', beyond'⟩ := ih _ shorter both beyond rfl
        exact ⟨n', .operator o :: .operand ⟨.identifier s, c₁.spanTo c₂ x.file⟩ :: (taken ++ taken'), left', b',
          by simp [whole, whole'], .operand operator inside reads reads', by simpa using climbed', beyond'⟩
      · refine unread ?_
        rintro _ _ same level' member
        cases same
        rcases List.mem_cons.mp member with rfl | member
        · exact inside
        · exact apart _ _ rfl level' member

theorem ascendsLevels (known : ls <:+ levels) : Ascends x ls d := by
  induction ls with
  | nil => exact ascendsBottom
  | cons level tighter ih =>
      intro c c₁ s ps next follows
      have operands := ih ((List.suffix_cons level tighter).trans known)
      obtain ⟨n, taken, left, b, whole, reads, climbed, beyond⟩ := operands next follows
      have first : Climbed x (level :: tighter) ([.operand ⟨.identifier s, c.spanTo c₁ x.file⟩] ++ taken) left n b :=
        ⟨climbed.grouped, fun k root => by have := climbed.root k root; simp; omega, climbed.stop, climbed.follows⟩
      obtain ⟨n', taken', left', b', whole', reads', climbed', beyond'⟩ := climbOperands known operands first beyond
      exact ⟨n', taken ++ taken', left', b', by rw [whole, whole', List.append_assoc], .level reads reads',
        by simpa using climbed', beyond'⟩

theorem readsGrouped {c₁ : Cursor} (next : c.next? .script = some (.identifier s, c₁)) (follows : Follows x.file c₁ ps) :
    ∃ n b, Reads x (.expression n) .script d c b ∧ b.next? .script = none ∧
      Grouped x.file (.operand ⟨.identifier s, c.spanTo c₁ x.file⟩ :: ps) n := by
  obtain ⟨n, taken, left, b, whole, reads, climbed, beyond⟩ := ascendsLevels List.suffix_rfl next follows
  cases climbed.follows with
  | done nothing => exact ⟨n, b, reads, nothing, by simpa [whole] using climbed.grouped⟩
  | more known =>
      obtain ⟨level, member, inside⟩ := rankLevel known
      exact absurd inside (beyond _ _ rfl level member)

end Climbing

section Text

open Cursor Lexeme JsxTree.Parser

variable {source : String} {c : Cursor} {s first : String} {rest : List (String × String)} {front : List Char}

def Ordinary (s : String) : Prop :=
  (∃ e es, s.toList = e :: es ∧ isIdentifierStart e = true ∧ ∀ e' ∈ es, isIdentifierPart e' = true) ∧
    s ∉ ["true", "false", "null"]

def spaced (first : String) : List (String × String) → String
  | [] => first
  | (o, s) :: rest => first ++ " " ++ o ++ " " ++ spaced s rest

def spacedPieces (file : Option String) (front : List Char) (first : String) : List (String × String) → List Piece
  | [] => [.operand ⟨.identifier first, .ofText front first.toList file⟩]
  | (o, s) :: rest => .operand ⟨.identifier first, .ofText front first.toList file⟩ :: .operator o ::
      spacedPieces file (front ++ (first ++ " " ++ o ++ " ").toList) s rest

theorem Ordinary.whole (h : Ordinary s) : Whole .script (.identifier s) := by
  obtain ⟨⟨e, es, text, start, parts⟩, other⟩ := h
  have all : ∀ e' ∈ es, isWordPart .script e' = true := fun e' inside => by simp [isWordPart, parts e' inside]
  have kind : wordKind .script s = .identifier s := by
    simp only [List.mem_cons, List.not_mem_nil, or_false, not_or] at other
    simp [wordKind, other]
  refine ⟨?_, rfl⟩
  rw [Token.Kind.text, text, nextWord start, word, List.takeWhile_eq_self_iff.mpr all, List.dropWhile_eq_nil_iff.mpr all,
    ← text, String.ofList_toList, kind]

theorem spacedStarts (word : Ordinary first) (rest : List (String × String)) :
    ∃ e es, (spaced first rest).toList = e :: es ∧ isIdentifierStart e = true := by
  obtain ⟨⟨e, es, text, start, -⟩, -⟩ := word
  cases rest with
  | nil => exact ⟨e, es, text, start⟩
  | cons p rest => exact ⟨e, es ++ ' ' :: (p.1.toList ++ ' ' :: (spaced p.2 rest).toList), by simp [spaced, text], start⟩

theorem followsSpaced (within : c.Within source) (whole : source.toList = front ++ c.skip.rest)
    (text : c.skip.rest = (spaced first rest).toList) (word : Ordinary first)
    (words : ∀ p ∈ rest, (rank? p.1).isSome ∧ Ordinary p.2) (file : Option String) :
    ∃ c₁ ps, c.next? .script = some (.identifier first, c₁) ∧ Follows file c₁ ps ∧
      spacedPieces file front first rest = .operand ⟨.identifier first, c.spanTo c₁ file⟩ :: ps := by
  -- One operator and operand at a time; the text in front grows by both, and with it where the next span begins.
  induction rest generalizing c first front with
  | nil =>
      obtain ⟨c₁, next, rest⟩ := nextWhole word.whole avoidsNil (by rw [text, List.append_nil]; rfl)
      have nothing : c₁.next? .script = none := nextNone.mpr (by rw [skipSolid (by rw [rest]; rfl), rest])
      have span := within.spans (skipReaches next) front _ (nextTraces next).1.1 whole file
      exact ⟨c₁, [], next, .done nothing, by rw [span]; rfl⟩
  | cons p rest ih =>
      obtain ⟨o, s⟩ := p
      obtain ⟨⟨known, word'⟩, words'⟩ := List.forall_mem_cons.mp words
      obtain ⟨k, known⟩ := Option.isSome_iff_exists.mp known
      obtain ⟨level, member, inside⟩ := rankLevel known
      obtain ⟨e, es, starts, start⟩ := spacedStarts word' rest
      have split : c.skip.rest = first.toList ++ ' ' :: (o.toList ++ ' ' :: (spaced s rest).toList) := by
        rw [text, spaced]
        simp
      obtain ⟨c₁, next, rest₁⟩ := nextWhole word.whole (avoidsCons (wordPartOther _ _ (by decide))) split
      obtain ⟨c₂, operator, rest₂⟩ := operatorAt member inside rest₁
      have solid : Trivia.splitPiece (spaced s rest).toList = none := by
        rw [starts]
        exact splitPieceNone (startUnblank start) (startOther start '/' (by decide))
      have text₂ := skipBlank rest₂ solid
      have within₂ := (nextReaches operator).within ((nextReaches next).within within)
      have whole₂ : source.toList = (front ++ (first ++ " " ++ o ++ " ").toList) ++ c₂.skip.rest := by
        rw [whole, split, text₂]
        simp
      obtain ⟨c₃, ps, operand, follows, pieces⟩ := ih within₂ whole₂ text₂ word' words'
      have span := within.spans (skipReaches next) front _ (nextTraces next).1.1 whole file
      exact ⟨c₁, _, next, .more known operator operand follows, by rw [spacedPieces, pieces, span]; rfl⟩

theorem spacedParses (word : Ordinary first) (words : ∀ p ∈ rest, (rank? p.1).isSome ∧ Ordinary p.2) (config : Config)
    (file : Option String) :
    ∃ n, parse (spaced first rest) config file = .ok n ∧ Grouped file (spacedPieces file [] first rest) n := by
  obtain ⟨e, es, starts, start⟩ := spacedStarts word rest
  have solid : (Cursor.start (spaced first rest)).skip = .start (spaced first rest) :=
    skipFirst (startUnblank start) (startOther start '/' (by decide)) starts
  have text : (Cursor.start (spaced first rest)).skip.rest = (spaced first rest).toList := by rw [solid]; rfl
  have whole : (spaced first rest).toList = [] ++ (Cursor.start (spaced first rest)).skip.rest := text.symm
  obtain ⟨c₁, ps, next, follows, pieces⟩ := followsSpaced (startWithin _) whole text word words file
  obtain ⟨n, b, reads, nothing, grouped⟩ := readsGrouped (x := ⟨config, file⟩) next follows
  rw [pieces]
  exact ⟨n, (parseIff _ config file n).mpr ⟨b, reads, nothing⟩, grouped⟩

/-- Whatever the settings, operands and operators in turn come to the tree of their ranks, and there is no other such tree. -/
theorem operatorsGroup (word : Ordinary first) (words : ∀ p ∈ rest, (rank? p.1).isSome ∧ Ordinary p.2) (config : Config)
    (file : Option String) : ∃ n, parse (spaced first rest) config file = .ok n ∧
      Grouped file (spacedPieces file [] first rest) n ∧ ∀ n', Grouped file (spacedPieces file [] first rest) n' → n' = n := by
  obtain ⟨n, parsed, grouped⟩ := spacedParses word words config file
  exact ⟨n, parsed, grouped, fun n' other => other.unique grouped⟩

theorem operatorsGroupMixed : Ordinary "a" ∧ Ordinary "$b" ∧
    (∀ p ∈ [("??", "a"), ("<", "$b"), ("-", "a"), ("-", "a"), ("*", "$b"), ("||", "a")], (rank? p.1).isSome ∧ Ordinary p.2) ∧
    ∃ n, parse "a ?? a < $b - a - a * $b || a" {} none = .ok n ∧
      Grouped none (spacedPieces none [] "a" [("??", "a"), ("<", "$b"), ("-", "a"), ("-", "a"), ("*", "$b"), ("||", "a")]) n := by
  have a : Ordinary "a" := ⟨⟨'a', [], rfl, by decide, by simp⟩, by decide⟩
  have b : Ordinary "$b" := ⟨⟨'$', ['b'], rfl, by decide, by simp; decide⟩, by decide⟩
  have words : ∀ p ∈ [("??", "a"), ("<", "$b"), ("-", "a"), ("-", "a"), ("*", "$b"), ("||", "a")],
      (rank? p.1).isSome ∧ Ordinary p.2 := by
    simp [rank?, a, b]
  obtain ⟨n, parsed, grouped, -⟩ := operatorsGroup a words {} none
  exact ⟨a, b, words, n, parsed, grouped⟩

end Text

end JsxTree.Grammar
