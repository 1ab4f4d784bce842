import JsxTree.Proofs.Paired
import JsxTree.Proofs.Spans

/-! The limit on depth. Parses of one source under two limits are the same, as long as the lower limit is not reached, and
with a level for every character none is. What a limit keeps out of a parse it keeps out of the tree. -/
namespace JsxTree

open JsxTree.Parser

def Parser.spanHere (p : Parser) : Span :=
  (p.scanner.current.1.map Token.span).getD ⟨p.scanner.lastEnd, p.scanner.lastEnd, p.scanner.file⟩

theorem currentSpanOf (p : Parser) : currentSpan p = .ok p.spanHere { p with scanner := p.scanner.current.2 } := by
  obtain ⟨-, lastEnd, -, file⟩ := (Scanner.currentForesees p.scanner).same
  simp only [currentSpan, bind, EStateM.bind, current, scan, spanHere]
  cases p.scanner.current.1 with
  | none =>
      rw [← lastEnd, ← file]
      rfl
  | some token => rfl

theorem enterEq (p : Parser) : enter p = (if p.config.maxDepth ≤ p.depth then
      currentSpan >>= fun s => fail ⟨"maximum nesting depth exceeded", s, .depthExceeded p.config.maxDepth, []⟩
    else set { p with depth := p.depth + 1 } : Parse Unit) p := rfl

theorem enterRoom {p : Parser} (room : p.depth < p.config.maxDepth) :
    enter p = .ok () { p with depth := p.depth + 1 } := by
  rw [enterEq, if_neg (Nat.not_le_of_lt room)]
  rfl

theorem enterFull {p : Parser} (full : p.config.maxDepth ≤ p.depth) : enter p = .error
    (.error ⟨"maximum nesting depth exceeded", p.spanHere, .depthExceeded p.config.maxDepth, []⟩)
    { p with scanner := p.scanner.current.2 } := by
  rw [enterEq, if_pos full]
  simp only [bind, EStateM.bind, currentSpanOf]
  rfl

theorem foundOf (s : Scanner) : ∃ found s', (s' = (s.skipTrivia false).2 ∨ s' = (s.skipTrivia false).2.current.2) ∧
    ∀ config depth asserting, Parser.found ⟨s, config, depth, asserting⟩ = .ok found ⟨s', config, depth, asserting⟩ := by
  cases moved : (s.skipTrivia false).1 with
  | none =>
      refine ⟨none, (s.skipTrivia false).2, .inl rfl, fun config depth asserting => ?_⟩
      simp only [Parser.found, bind, EStateM.bind, scan, moved]
      rfl
  | some _ =>
      refine ⟨(s.skipTrivia false).2.current.1, (s.skipTrivia false).2.current.2, .inr rfl, fun config depth asserting => ?_⟩
      simp only [Parser.found, bind, EStateM.bind, scan, moved]
      rfl

def Token.misfit (t : Token) : ParseError :=
  match t.kind with
  | .invalid _ message => ⟨message, t.span, .invalidToken, []⟩
  | kind => ⟨"unexpected token `" ++ kind.text ++ "`", t.span, .unexpectedToken kind.text, []⟩

theorem unexpectedToken {p p' : Parser} {t : Token} (ran : found p = .ok (some t) p') :
    unexpected none p = .ok t.misfit p' := by
  simp only [unexpected, bind, EStateM.bind, ran, Token.misfit]
  cases t.kind <;> rfl

theorem unexpectedEnd {p p' : Parser} (ran : found p = .ok none p') : unexpected none p =
    .ok ⟨"unexpected end of input", ⟨p'.scanner.lastEnd, p'.scanner.lastEnd, p'.scanner.file⟩, .unexpectedEnd, []⟩ p' := by
  simp only [unexpected, bind, EStateM.bind, ran]
  rfl

theorem unexpectedOf (s : Scanner) : ∃ e s', (s' = (s.skipTrivia false).2 ∨ s' = (s.skipTrivia false).2.current.2) ∧
    (∀ l, e.kind ≠ .depthExceeded l) ∧
    ∀ config depth asserting, unexpected none ⟨s, config, depth, asserting⟩ = .ok e ⟨s', config, depth, asserting⟩ := by
  obtain ⟨found, s', moved, ran⟩ := foundOf s
  cases found with
  | none =>
      refine ⟨⟨"unexpected end of input", ⟨s'.lastEnd, s'.lastEnd, s'.file⟩, .unexpectedEnd, []⟩, s', moved, fun l same => ?_,
        fun config depth asserting => unexpectedEnd (ran config depth asserting)⟩
      cases same
  | some token =>
      refine ⟨token.misfit, s', moved, fun l same => ?_, fun config depth asserting =>
        unexpectedToken (ran config depth asserting)⟩
      unfold Token.misfit at same
      split at same <;> cases same

section Threshold

structure Limited (levels low high : Nat) (b : Nat) (p q : Parser) : Prop where
  low : p.config.maxDepth = low
  high : q = { p with config := ⟨high, p.config.jsx⟩ }
  levels : p.depth + b = levels

theorem limitedEnter {levels low high b : Nat} {p q : Parser} (ordered : low ≤ high)
    (related : Limited levels low high (b + 1) p q) :
    Matched (Limited levels low high b) (Limited levels low high (b + 1)) (fun e => ∀ l, e.kind ≠ .depthExceeded l)
      (fun h => (∃ e, h = .error e ∧ e.kind = .depthExceeded low) ∧ low < levels) (enter p) (enter q) := by
  obtain ⟨rfl, rfl, levels⟩ := related
  by_cases full : p.config.maxDepth ≤ p.depth
  · rw [enterFull full]
    exact .alone ⟨⟨_, rfl, rfl⟩, by omega⟩
  · have room : p.depth < p.config.maxDepth := Nat.lt_of_not_le full
    have above : p.depth < high := Nat.lt_of_lt_of_le room ordered
    rw [enterRoom room, enterRoom (p := { p with config := ⟨high, p.config.jsx⟩ }) above]
    exact .same ⟨rfl, rfl, by rw [← levels]; exact Nat.add_right_comm p.depth 1 b⟩

theorem limitedLeave {levels low high b : Nat} {p q p' q' : Parser} (outside : Limited levels low high (b + 1) p q)
    (inside : Limited levels low high b p' q') : Limited levels low high (b + 1) p'.leave q'.leave := by
  have levels := outside.levels
  have deeper := inside.levels
  rw [inside.high]
  exact ⟨inside.low, rfl, by simp only [leave]; omega⟩

def limits {low high : Nat} (ordered : low ≤ high) (levels : Nat) : Pairing where
  rel := Limited levels low high
  failing := Limited levels low high
  shared e := ∀ l, e.kind ≠ .depthExceeded l
  early h := (∃ e, h = .error e ∧ e.kind = .depthExceeded low) ∧ low < levels
  ready _ := True
  looked _ _ := trivial
  abreast _ _ _ related := related.high ▸ ⟨rfl, rfl, rfl, rfl, rfl⟩
  current _ _ _ related := related.high ▸ ⟨rfl, related.low, rfl, related.levels⟩
  peek _ _ _ related := related.high ▸ ⟨rfl, related.low, rfl, related.levels⟩
  advance _ _ _ related := related.high ▸ ⟨rfl, related.low, rfl, related.levels⟩
  readText _ _ _ related := related.high ▸ ⟨rfl, related.low, rfl, related.levels⟩
  setMode _ _ _ _ related := related.high ▸ ⟨related.low, rfl, related.levels⟩
  unexpected := by
    intro b p q related _ _
    obtain ⟨e, s, -, other, runs⟩ := unexpectedOf p.scanner
    rw [related.high]
    exact ⟨e, _, _, runs _ _ _, runs _ _ _, ⟨related.low, rfl, related.levels⟩, other⟩
  mismatched := by
    intro opening closing l same
    cases same
  enter _ _ _ related := limitedEnter ordered related
  leave _ _ _ _ _ := limitedLeave
  fails _ _ _ := id
  failingMode _ _ _ _ related := related.high ▸ ⟨related.low, rfl, related.levels⟩
  asserts _ _ _ claim _ related := assertsAlike (related.high ▸ rfl) related related claim
  failingLeave _ _ _ _ _ := limitedLeave

def TooDeep (limit : Nat) (outcome : Except Halt Node) : Prop :=
  ∃ e, outcome = .error (.error e) ∧ e.kind = .depthExceeded limit

theorem parseLimits {low high : Nat} (ordered : low ≤ high) (source : String) (jsx : Bool) (file : Option String) :
    (parse source ⟨low, jsx⟩ file = parse source ⟨high, jsx⟩ file ∧ ∀ l, ¬TooDeep l (parse source ⟨low, jsx⟩ file)) ∨
      TooDeep low (parse source ⟨low, jsx⟩ file) ∧ low < source.toList.length + 1 := by
  have related : Limited (source.toList.length + 1) low high (source.toList.length + 1)
      (Parser.start source ⟨low, jsx⟩ file) (Parser.start source ⟨high, jsx⟩ file) := ⟨rfl, rfl, Nat.zero_add _⟩
  have run := @pairedWholeExpression (limits ordered (source.toList.length + 1)) (Parser.start source ⟨low, jsx⟩ file)
    (Parser.start source ⟨high, jsx⟩ file) related
  unfold parse
  generalize wholeExpression (Parser.start source ⟨low, jsx⟩ file) = left at *
  generalize wholeExpression (Parser.start source ⟨high, jsx⟩ file) = right at *
  cases run with
  | same related' =>
      refine .inl ⟨rfl, fun l deep => ?_⟩
      obtain ⟨e, failed, -⟩ := deep
      cases failed
  | both _ raised =>
      refine .inl ⟨rfl, fun l deep => ?_⟩
      obtain ⟨e, failed, kind⟩ := deep
      cases failed
      exact raised e rfl l kind
  | alone raised =>
      obtain ⟨⟨e, rfl, kind⟩, few⟩ := raised
      exact .inr ⟨⟨e, rfl, kind⟩, few⟩

theorem parseRoom (source : String) (jsx : Bool) (file : Option String) :
    ∃ n, ∀ l, ¬TooDeep l (parse source ⟨n, jsx⟩ file) := by
  refine ⟨source.toList.length + 1, ?_⟩
  cases parseLimits (Nat.le_refl (source.toList.length + 1)) source jsx file with
  | inl within => exact within.2
  | inr deep => exact absurd deep.2 (Nat.lt_irrefl _)

theorem parseOutcome (source : String) (config : Config) (file : Option String) :
    ∃ outcome : Except ParseError Node, parse source config file = outcome.mapError Halt.error := by
  have read := Grammar.parseReads source config file
  cases outcome : parse source config file with
  | ok n => exact ⟨.ok n, rfl⟩
  | error h =>
      rw [outcome] at read
      cases h with
      | error e => exact ⟨.error e, rfl⟩
      | exhausted => exact read.elim
      | misshapen => exact read.elim

end Threshold

section Paths

def Form.edges : Form Node → List (Node × Nat)
  | .unary _ _ argument => [(argument, 1)]
  | .member object property computed => [(object, 0), (property, computed.toNat)]
  | .call callee arguments => (callee, 0) :: arguments.map (·, 1)
  | form => form.children.map (·, 0)

def Form.ownLevels : Form Node → Nat
  | .fragment _ _ _ | .element _ _ _ => 1
  | _ => 0

theorem Form.edgesChildren (form : Form Node) : form.edges.map Prod.fst = form.children := by
  cases form with
  | unary | member => rfl
  | call callee arguments =>
      rw [Grammar.childrenCall, Form.edges, List.map_cons, List.map_map]
      exact congrArg (List.cons callee) (List.map_id arguments)
  | _ => exact (List.map_map ..).trans (List.map_id _)

/-- There is a path from the node down to a leaf on which so many levels are entered. -/
inductive Descends : Node → Nat → Prop where
  | leaf {n} (childless : n.form.children = []) : Descends n n.form.ownLevels
  | step {n c edge k} (down : (c, edge) ∈ n.form.edges) (below : Descends c k) :
      Descends n (n.form.ownLevels + edge + k)

def Shallow (limit depth : Nat) (n : Node) : Prop := ∀ k, Descends n k → 0 < k → depth + k ≤ limit

variable {limit depth : Nat} {n : Node} {ns : List Node} {form : Form Node} {span : Span}

theorem shallowOver (own : form.ownLevels = 0) (below : ∀ c edge, (c, edge) ∈ form.edges →
    (0 < edge → edge = 1 ∧ depth < limit) ∧ Shallow limit (depth + edge) c) : Shallow limit depth ⟨form, span⟩ := by
  intro k path positive
  cases path with
  | leaf =>
      rw [own] at positive
      cases positive
  | @step _ c edge k down path =>
      obtain ⟨entered, inside⟩ := below c edge down
      have deeper := inside k path
      simp only [own] at positive ⊢
      omega

theorem shallowPlain (own : form.ownLevels = 0) (level : form.edges = form.children.map (·, 0))
    (below : ∀ c ∈ form.children, Shallow limit depth c) : Shallow limit depth ⟨form, span⟩ := by
  apply shallowOver own
  intro c edge down
  rw [level, List.mem_map] at down
  obtain ⟨c', inside, same⟩ := down
  cases same
  exact ⟨fun none => absurd none (Nat.lt_irrefl 0), below c inside⟩

theorem shallowOnly (own : form.ownLevels = 0) (level : form.edges = form.children.map (·, 0))
    (only : form.children = [n]) (below : Shallow limit depth n) : Shallow limit depth ⟨form, span⟩ := by
  apply shallowPlain own level
  rw [only]
  exact List.forall_mem_singleton.mpr below

theorem shallowLeaf (own : form.ownLevels = 0) (level : form.edges = []) : Shallow limit depth ⟨form, span⟩ := by
  apply shallowOver own
  intro c edge down
  rw [level] at down
  cases down

theorem shallowMarkup (own : form.ownLevels = 1) (level : form.edges = form.children.map (·, 0)) (room : depth < limit)
    (below : ∀ c ∈ form.children, Shallow limit (depth + 1) c) : Shallow limit depth ⟨form, span⟩ := by
  intro k path positive
  cases path with
  | leaf =>
      simp only [own]
      exact room
  | @step _ c edge k down path =>
      rw [level, List.mem_map] at down
      obtain ⟨c', inside, same⟩ := down
      cases same
      have deeper := below c inside k path
      simp only [own]
      omega

theorem shallowUnary {o : String} {leading : Bool} (room : depth < limit) (below : Shallow limit (depth + 1) n) :
    Shallow limit depth ⟨.unary o leading n, span⟩ := by
  apply shallowOver rfl
  intro c edge down
  cases List.mem_singleton.mp down
  exact ⟨fun _ => ⟨rfl, room⟩, below⟩

theorem shallowMember {object property : Node} {computed : Bool} (before : Shallow limit depth object)
    (room : computed = true → depth < limit) (inside : Shallow limit (depth + computed.toNat) property) :
    Shallow limit depth ⟨.member object property computed, span⟩ := by
  apply shallowOver rfl
  intro c edge down
  simp only [Form.edges, List.mem_cons, List.not_mem_nil, or_false, Prod.mk.injEq] at down
  rcases down with ⟨rfl, rfl⟩ | ⟨rfl, rfl⟩
  · exact ⟨fun none => absurd none (Nat.lt_irrefl 0), before⟩
  · cases computed with
    | false => exact ⟨fun none => absurd none (Nat.lt_irrefl 0), inside⟩
    | true => exact ⟨fun _ => ⟨rfl, room rfl⟩, inside⟩

theorem shallowCall {callee : Node} (before : Shallow limit depth callee) (room : depth < limit)
    (inside : ∀ n ∈ ns, Shallow limit (depth + 1) n) : Shallow limit depth ⟨.call callee ns, span⟩ := by
  apply shallowOver rfl
  intro c edge down
  simp only [Form.edges, List.mem_cons, Prod.mk.injEq, List.mem_map] at down
  rcases down with ⟨rfl, rfl⟩ | ⟨n, member, rfl, rfl⟩
  · exact ⟨fun none => absurd none (Nat.lt_irrefl 0), before⟩
  · exact ⟨fun _ => ⟨rfl, room⟩, inside n member⟩

end Paths

namespace Grammar

open Cursor JsxTree.Parser

variable {x : Setting} {file : Option String} {ph : Phrase} {m : Mode} {d limit : Nat} {c c' : Cursor} {n object : Node}

theorem ReadsMembers.shallow (h : ReadsMembers file object c n c') (before : Shallow limit d object) :
    Shallow limit d n := by
  induction h with
  | stop => exact before
  | step _ _ _ ih =>
      apply ih
      apply shallowPlain rfl rfl
      exact List.forall_mem_cons.mpr ⟨before, List.forall_mem_singleton.mpr (shallowLeaf rfl rfl)⟩

theorem ReadsName.shallow {chained : Bool} (h : ReadsName file chained n c c') : Shallow limit d n := by
  cases h with
  | simple => exact shallowLeaf rfl rfl
  | chain _ _ members => exact members.shallow (shallowLeaf rfl rfl)
  | namespaced =>
      apply shallowPlain rfl rfl
      exact List.forall_mem_cons.mpr ⟨shallowLeaf rfl rfl, List.forall_mem_singleton.mpr (shallowLeaf rfl rfl)⟩

theorem shallowOpening {own : Node} {as : List Node} {selfClosing : Bool} {span : Span}
    (name : JsxTree.Shallow limit d own) (attributes : ∀ a ∈ as, JsxTree.Shallow limit d a) :
    JsxTree.Shallow limit d ⟨.openingElement own (presentList as) selfClosing, span⟩ := by
  apply shallowPlain rfl rfl
  rw [childrenOpening]
  exact List.forall_mem_cons.mpr ⟨name, attributes⟩

def Phrase.Shallow (limit d : Nat) : Phrase → Prop
  | .suffixes left n | .operands _ _ left n => JsxTree.Shallow limit d left → JsxTree.Shallow limit d n
  | .moreArguments ns | .arguments ns | .attributes ns | .children ns => ∀ n ∈ ns, JsxTree.Shallow limit d n
  | .primary n | .chain n | .unary n | .ladder _ n | .fragment n | .element n | .attributeValue n | .attribute n
  | .child n => JsxTree.Shallow limit d n

theorem Reads.shallow (h : Reads x ph m d c c') : ph.Shallow x.config.maxDepth d := by
  induction h with
  | identifier | literal | stringValue | text => exact shallowLeaf rfl rfl
  | parenthesized _ _ _ _ ih =>
      -- What is read a level deeper has fewer levels left than there are.
      exact fun k path positive => Nat.le_of_succ_le (by have deeper := ih k path positive; omega)
  | fragmentPrimary _ _ ih | elementPrimary _ _ ih | plainUnary _ _ ih | bottom _ ih | fragmentValue _ ih
  | elementValue _ ih | fragmentChild _ _ ih | elementChild _ _ ih => exact ih
  | noSuffix | noOperand => exact id
  | memberSuffix _ _ _ ih => exact fun before => ih (shallowMember before (fun no => by cases no) (shallowLeaf rfl rfl))
  | computedSuffix _ room _ _ _ inside ih => exact fun before => ih (shallowMember before (fun _ => room) inside)
  | callSuffix _ room _ _ _ inside ih => exact fun before => ih (shallowCall before room inside)
  | chain _ _ first more | level _ _ first more => exact more first
  | unary _ _ room _ ih => exact shallowUnary room ih
  | @operand _ _ level _ _ _ _ _ _ _ _ _ _ _ _ _ right more =>
      intro left
      apply more
      cases level.join with
      | binary => exact shallowPlain rfl rfl (List.forall_mem_cons.mpr ⟨left, List.forall_mem_singleton.mpr right⟩)
      | logical => exact shallowPlain rfl rfl (List.forall_mem_cons.mpr ⟨left, List.forall_mem_singleton.mpr right⟩)
  | noMoreArguments | noArguments | noAttribute | noChild => exact List.forall_mem_nil _
  | moreArguments _ _ _ first more | arguments _ _ first more | attributes _ _ first more
  | children _ _ first more => exact List.forall_mem_cons.mpr ⟨first, more⟩
  | fragment _ _ room _ _ _ _ _ _ inside =>
      apply shallowMarkup rfl rfl room
      rw [childrenFragment, List.forall_mem_cons, List.forall_mem_append, List.forall_mem_singleton]
      exact ⟨shallowLeaf rfl rfl, inside, shallowLeaf rfl rfl⟩
  | selfClosing _ _ room _ name _ _ _ attributes =>
      apply shallowMarkup rfl rfl room
      exact List.forall_mem_singleton.mpr (shallowOpening name.shallow attributes)
  | element _ _ room _ name _ _ _ _ _ closingName _ _ attributes inside =>
      apply shallowMarkup rfl rfl room
      rw [childrenElement, List.forall_mem_cons, List.forall_mem_append, List.forall_mem_singleton]
      exact ⟨shallowOpening name.shallow attributes, inside, shallowOnly rfl rfl rfl closingName.shallow⟩
  | containerValue _ _ _ ih | spreadAttribute _ _ _ _ ih | containerChild _ _ _ _ ih | spreadChild _ _ _ _ _ ih =>
      exact shallowOnly rfl rfl rfl ih
  | plainAttribute name => exact shallowOnly rfl rfl rfl name.shallow
  | valuedAttribute name _ _ ih =>
      exact shallowPlain rfl rfl (List.forall_mem_cons.mpr ⟨name.shallow, List.forall_mem_singleton.mpr ih⟩)
  | emptyChild => exact shallowOnly rfl rfl rfl (shallowLeaf rfl rfl)

end Grammar

theorem parseShallow {source : String} {config : Config} {file : Option String} {tree : Node} {k : Nat}
    (accepted : parse source config file = .ok tree) (path : Descends tree k) : k ≤ config.maxDepth := by
  have read := Grammar.parseReads source config file
  rw [accepted] at read
  obtain ⟨c', reads, -⟩ := read
  have shallow : Shallow config.maxDepth 0 tree := reads.shallow
  cases k with
  | zero => exact Nat.zero_le _
  | succ k =>
      have bound := shallow (k + 1) path (Nat.succ_pos k)
      rwa [Nat.zero_add] at bound

/-- The limit on depth is a threshold: from some limit on a source always comes to the same, which is not that the limit
is exceeded, and below it the limit is what the parse fails for. No path of a tree enters more levels than the limit. -/
theorem depthThreshold (source : String) (jsx : Bool) (file : Option String) :
    (∃ (threshold : Nat) (outcome : Except ParseError Node),
      (∀ n, threshold ≤ n → parse source ⟨n, jsx⟩ file = outcome.mapError Halt.error) ∧
      (∀ e l, outcome = .error e → e.kind ≠ .depthExceeded l) ∧
      ∀ n, n < threshold → TooDeep n (parse source ⟨n, jsx⟩ file)) ∧
    ∀ n tree, parse source ⟨n, jsx⟩ file = .ok tree → ∀ k, Descends tree k → k ≤ n := by
  classical
  constructor
  · have room := parseRoom source jsx file
    have within := Nat.find_spec room
    obtain ⟨outcome, came⟩ := parseOutcome source ⟨Nat.find room, jsx⟩ file
    refine ⟨Nat.find room, outcome, fun n above => ?_, fun e l failed kind => ?_, fun n below => ?_⟩
    · cases parseLimits above source jsx file with
      | inl same => rw [← same.1, came]
      | inr deep => exact absurd deep.1 (within _)
    · apply within l
      rw [came, failed]
      exact ⟨e, rfl, kind⟩
    · cases parseLimits (Nat.le_refl n) source jsx file with
      | inl shallow => exact absurd shallow.2 (Nat.find_min room below)
      | inr deep => exact deep.1
  · intro n tree accepted k path
    exact parseShallow accepted path

theorem depthThresholdNested : ∃ outcome : Except ParseError Node,
    (∀ n, 2 ≤ n → parse "(-a)" ⟨n, true⟩ none = outcome.mapError Halt.error) ∧
    TooDeep 1 (parse "(-a)" ⟨1, true⟩ none) := by
  obtain ⟨⟨threshold, outcome, above, -, below⟩, -⟩ := depthThreshold "(-a)" true none
  have refused : (parse "(-a)" ⟨1, true⟩ none).toOption.isSome = false := by decide +kernel
  have accepted : (parse "(-a)" ⟨2, true⟩ none).toOption.isSome = true := by decide +kernel
  refine ⟨outcome, fun n room => above n (Nat.le_trans (Nat.le_of_not_lt fun deeper => ?_) room),
    below 1 (Nat.lt_of_not_le fun within => ?_)⟩
  · obtain ⟨e, failed, -⟩ := below 2 deeper
    rw [failed] at accepted
    cases accepted
  · rw [above 1 within, ← above 2 (Nat.le_succ_of_le within), accepted] at refused
    cases refused

end JsxTree
