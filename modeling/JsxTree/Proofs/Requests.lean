import JsxTree.Proofs.Modes

/-! Requests to a parser, one after another, and what is shown for each: its outcome, and the mode, the end of the last
token and the depth behind it. Parsers that no rule tells apart show the same for all requests. Only where trivia is
skipped does it matter whether the current token has been read ahead, since it keeps its comments then. -/
namespace JsxTree

open JsxTree.Parser

inductive Request where
  | scan (call : Call)
  | expect (o : String)
  | position
  | error (message : Option String) (position : Option Position)
  | openNode (kind : Kind) (start : Start)
  | complete (node : OpenNode) (form : Form Node) (stop : Option Position)
  | enter
  | leave
  | rule (k : Construct)
  | list (k : Construct) (separators : List String)
  | fold (k : Construct) (operators : List String) (join : Join)

inductive Response where
  | answer (a : Answer)
  | error (e : ParseError)
  | opened (node : OpenNode)
  | node (n : Option Node)
  | items (ns : List (Separated Node))

structure Client where
  parser : Parser
  marks : List Checkpoint

structure Shown where
  outcome : Except Halt Response
  mode : Mode
  lastEnd : Position
  depth : Nat

def Shown.token? (s : Shown) : Option Token :=
  match s.outcome with
  | .ok (.answer (.token t)) => t
  | _ => none

def Parser.left {α : Type} (step : Parse α) (p : Parser) : Parser :=
  match step p with
  | .ok _ p' => p'
  | .error _ p' => p'

def Request.skips : Request → Bool
  | .scan call => call.skips
  | .error none _ => true
  | _ => false

namespace Client

def step (c : Client) (step : Parse Response) : Except Halt Response × Client :=
  (outcome step c.parser, ⟨left step c.parser, c.marks⟩)

def perform (c : Client) : Request → Except Halt Response × Client
  | .scan call =>
      let (answer, session) := Scanner.ask ⟨c.parser.scanner, c.marks⟩ call
      (.ok (.answer answer), ⟨{ c.parser with scanner := session.scanner }, session.marks⟩)
  | .expect o => c.step do return .answer (.token (some (← expect o)))
  | .position => c.step do return .answer (.position (← currentPosition))
  | .error (some message) position => c.step do return .error (← errorWith message position)
  | .error none position => c.step do return .error (← unexpected position)
  | .openNode kind start => c.step do return .opened (← openNode kind start)
  | .complete node form stop => c.step do return .node (some (← complete node form stop))
  | .enter => c.step do
      enter
      return .answer .done
  | .leave => (.ok (.answer .done), { c with parser := c.parser.leave })
  | .rule k => c.step do return .node (← rule k)
  | .list k separators => c.step do return .items (← separatedList (rule k) separators)
  | .fold k operators join => c.step do return .node (← leftFold (rule k) operators join)

def ask (c : Client) (r : Request) : Shown × Client :=
  let (outcome, c) := c.perform r
  (⟨outcome, c.parser.scanner.mode, c.parser.scanner.lastEnd, c.parser.depth⟩, c)

def run : List Request → Client → List Shown
  | [], _ => []
  | r :: rs, c => (c.ask r).1 :: run rs (c.ask r).2

/-- Wherever trivia is skipped, the current token has been read ahead by both parsers or by neither. -/
def Heedful : List Request → Client → Client → Prop
  | [], _, _ => True
  | r :: rs, c, c' =>
      (r.skips = true → (c.parser.scanner.ahead = [] ↔ c'.parser.scanner.ahead = [])) ∧
        Heedful rs (c.ask r).2 (c'.ask r).2

instance decidableHeedful : (rs : List Request) → (c c' : Client) → Decidable (Heedful rs c c')
  | [], _, _ => isTrue trivial
  | r :: rs, c, c' =>
      have := decidableHeedful rs (c.ask r).2 (c'.ask r).2
      inferInstanceAs (Decidable ((r.skips = true → (c.parser.scanner.ahead = [] ↔ c'.parser.scanner.ahead = [])) ∧
        Heedful rs (c.ask r).2 (c'.ask r).2))

structure Alike (c c' : Client) : Prop where
  parsers : Matching c.parser c'.parser
  marks : c.marks = c'.marks

end Client

section Skipping

variable {s s' : Scanner} {u : Bufferless} {p q : Parser} {b : Nat}

theorem Scanner.Unbuffers.beyond (h : Unbuffers true s u) : Unbuffers true { s with cursor := s.cursor.skip }
    { u with cursor := s.cursor.skip, text := if s.ahead = [] then none else u.current } := by
  have foreseen : Foreseen true { s with cursor := s.cursor.skip } (if s.ahead = [] then none else u.current) := by
    by_cases empty : s.ahead = []
    · rw [if_pos empty, Foreseen]
      simp only [empty]
      trivial
    · obtain ⟨a, as, ahead⟩ := List.exists_cons_of_ne_nil empty
      obtain ⟨first, now, same, after, more⟩ := h.first ahead
      have own : a = first := by
        have token := matchesExact (Option.Rel.some same)
        cases a
        cases first
        simp only [Option.some.injEq] at token after
        rw [token, after]
      rw [if_neg empty, now, Foreseen]
      exact ⟨as, own ▸ ahead, more⟩
  exact ⟨rfl, h.lastEnd, h.mode, h.file, foreseen⟩

theorem matchingSkip (h : Matching p q) (alike : p.scanner.ahead = [] ↔ q.scanner.ahead = []) (required : Bool) :
    Answered Matching (Scanner.skipTrivia required) p q := by
  obtain ⟨config, depth, asserting, u, left, right⟩ := h
  have cursor : p.scanner.cursor = q.scanner.cursor := left.cursor.symm.trans right.cursor
  simp only [Answered, Scanner.skipTriviaOf, ← cursor]
  by_cases stays : (Trivia.opensComment p.scanner.cursor.skip.rest ||
      (required && p.scanner.cursor.skip.place.offset - p.scanner.cursor.place.offset == 0)) = true
  · simp only [if_pos stays]
    exact ⟨trivial, config, depth, asserting, u, left, right⟩
  · simp only [if_neg stays]
    have here := left.beyond
    have there := right.beyond
    simp only [← cursor, ← alike] at there
    exact ⟨trivial, config, depth, asserting, _, here, there⟩

theorem lookedAlike (h : Matching p q) (left : p.scanner.Looked) (right : q.scanner.Looked) :
    p.scanner.ahead = [] ↔ q.scanner.ahead = [] := by
  have told : ∀ {s : Scanner}, s.Looked → (s.ahead = [] ↔ s.current.1 = none) := by
    intro s looked
    simp only [Scanner.current, show s.fill 1 = s from looked, Option.map_eq_none_iff]
    cases s.ahead <;> simp
  obtain ⟨-, -, -, u, here, there⟩ := h
  rw [told left, told right, Scanner.matchesExact here.current, Scanner.matchesExact there.current]

theorem matchingFound (h : Matching p q) (alike : p.scanner.ahead = [] ↔ q.scanner.ahead = []) :
    ∃ t p' q', found p = .ok t p' ∧ found q = .ok t q' ∧ Matching p' q' := by
  obtain ⟨bytes, beyond⟩ := matchingSkip h alike false
  simp only [found, bind, EStateM.bind, scan, bytes]
  cases (q.scanner.skipTrivia false).1 with
  | none => exact ⟨none, _, _, rfl, rfl, beyond⟩
  | some _ =>
      obtain ⟨token, here⟩ := unbuffered.current (b := 0) beyond
      exact ⟨_, _, _, rfl, congrArg (fun t => EStateM.Result.ok t _) token.symm, here⟩

theorem unexpectedFound (t : Option Token) (position : Option Position) :
    ∃ e : Position → Option String → ParseError, ∀ p p', found p = .ok t p' →
      unexpected position p = .ok (e p'.scanner.lastEnd p'.scanner.file) p' := by
  cases t with
  | none =>
      refine ⟨fun last file => ⟨"unexpected end of input", ⟨position.getD last, position.getD last, file⟩,
        .unexpectedEnd, []⟩, fun p p' ran => ?_⟩
      simp only [unexpected, bind, EStateM.bind, ran]
      rfl
  | some t =>
      refine ⟨fun _ file => { t.misfit with span := position.elim t.span fun here => ⟨here, here, file⟩ },
        fun p p' ran => ?_⟩
      simp only [unexpected, bind, EStateM.bind, ran, Token.misfit]
      cases position <;> cases t.kind <;> rfl

theorem matchingUnexpected (h : Matching p q) (alike : p.scanner.ahead = [] ↔ q.scanner.ahead = [])
    (position : Option Position) :
    ∃ e p' q', unexpected position p = .ok e p' ∧ unexpected position q = .ok e q' ∧ Matching p' q' := by
  obtain ⟨t, p', q', left, right, here⟩ := matchingFound h alike
  obtain ⟨e, found⟩ := unexpectedFound t position
  have abreast := unbuffered.abreast (b := 0) here
  refine ⟨_, p', q', found p p' left, ?_, here⟩
  rw [found q q' right, abreast.lastEnd, abreast.file]

end Skipping

section Asking

variable {α : Type} {b : Nat} {p q : Parser} {c c' : Client}

def exactly : Pairing where
  rel _ := Matching
  failing _ := Matching
  shared _ := True
  early _ := False
  ready := Scanner.Looked
  looked _ := id
  abreast := unbuffered.abreast
  current := unbuffered.current
  peek := unbuffered.peek
  advance := unbuffered.advance
  readText := unbuffered.readText
  setMode := unbuffered.setMode
  unexpected _ _ _ h left right := by
    obtain ⟨e, p', q', here, there, matching⟩ := matchingUnexpected h (lookedAlike h left right) none
    exact ⟨e, p', q', here, there, matching, trivial⟩
  mismatched _ _ := trivial
  enter _ p q h := by
    have span := matchingSpan h
    obtain ⟨-, current⟩ := unbuffered.current (b := 0) h
    obtain ⟨config, depth, asserting, scanners⟩ := h
    by_cases full : p.config.maxDepth ≤ p.depth
    · rw [enterFull full, enterFull (by rwa [← config, ← depth]), span, config]
      exact .both (config ▸ current) fun _ _ => trivial
    · have room := Nat.lt_of_not_le full
      rw [enterRoom room, enterRoom (by rwa [← config, ← depth]), depth]
      exact .same ⟨config, rfl, asserting, scanners⟩
  leave := unbuffered.leave
  fails _ _ _ := id
  failingMode := unbuffered.setMode
  asserts _ _ _ claim _ h := assertsAlike h.asserting h h claim
  failingLeave := unbuffered.leave

theorem pairedRule (k : Construct) : Paired exactly b (rule k) := by
  intro p q related
  have matching : exactly.rel (p.scanner.cursor.rest.length + 1) p q := related
  have run := Grammar.pairedWithin _ k matching
  unfold rule
  rwa [← (exactly.abreast related).cursor]

theorem attentiveRule (k : Construct) : Attentive (rule k) := fun _ _ ran => Grammar.attentiveWithin _ k ran

theorem pairedErrorWith (message : String) (position : Option Position) :
    Paired exactly b (errorWith message position) := by
  cases position with
  | some here => exact (pairedSpanOf here here).bind fun _ => pairedPure _
  | none =>
      refine Alongside.bind ?_ fun _ => pairedPure _
      exact pairedCurrent.either (pairedLastEnd.bind fun _ => pairedSpanOf _ _) fun _ => pairedPure _

theorem answersSame {a a' : Answer} {b : Answer} (h : a.Matches true b) (h' : a'.Matches true b) : a = a' := by
  cases b with
  | token t =>
      cases a with
      | token s =>
          cases a' with
          | token s' => exact congrArg Answer.token ((Scanner.matchesExact h).trans (Scanner.matchesExact h').symm)
          | flag | bytes | position | done => cases h'
      | flag | bytes | position | done => cases h
  | flag | bytes | position | done => cases a <;> cases a' <;> exact Eq.trans h (Eq.symm h')

namespace Client

abbrev Same (c c' : Client) (r : Request) : Prop :=
  (c.perform r).1 = (c'.perform r).1 ∧ Alike (c.perform r).2 (c'.perform r).2

theorem Alike.stepped (h : c.Alike c') {f : Parse Response}
    (run : Matched Matching Matching (fun _ => True) (fun _ => False) (f c.parser) (f c'.parser)) :
    (c.step f).1 = (c'.step f).1 ∧ Alike (c.step f).2 (c'.step f).2 := by
  have marks := h.marks
  simp only [step, outcome, left]
  generalize f c.parser = here at *
  generalize f c'.parser = there at *
  cases run with
  | same related => exact ⟨rfl, related, marks⟩
  | both related => exact ⟨rfl, related, marks⟩
  | alone raised => exact raised.elim

theorem Alike.scanned (h : c.Alike c') {call : Call}
    (heeded : call.skips = true → (c.parser.scanner.ahead = [] ↔ c'.parser.scanner.ahead = [])) :
    Same c c' (.scan call) := by
  obtain ⟨parsers, marks⟩ := h
  cases skips : call.skips with
  | true =>
      cases call with
      | skipTrivia required =>
          obtain ⟨bytes, beyond⟩ := matchingSkip parsers (heeded skips) required
          exact ⟨congrArg (fun n => (.ok (.answer (.bytes n)) : Except Halt Response)) bytes, beyond, marks⟩
      | _ => cases skips
  | false =>
      obtain ⟨config, depth, asserting, u, left, right⟩ := parsers
      have here : Session.Unbuffers true ⟨c.parser.scanner, c.marks⟩ ⟨u, c.marks⟩ := ⟨left, rfl⟩
      have there : Session.Unbuffers true ⟨c'.parser.scanner, c'.marks⟩ ⟨u, c.marks⟩ := ⟨right, marks⟩
      have counts : true = true → call.skips = false := fun _ => skips
      obtain ⟨answer, after⟩ := here.ask counts
      obtain ⟨answer', after'⟩ := there.ask counts
      exact ⟨congrArg (fun a => (.ok (.answer a) : Except Halt Response)) (answersSame answer answer'),
        ⟨config, depth, asserting, _, after.scanner, after'.scanner⟩, after.marks.symm.trans after'.marks⟩

theorem Alike.performed (h : c.Alike c') (r : Request)
    (heeded : r.skips = true → (c.parser.scanner.ahead = [] ↔ c'.parser.scanner.ahead = [])) : Same c c' r := by
  have matching : exactly.rel 0 c.parser c'.parser := h.parsers
  have attends (k) : Attends exactly (rule k) := (attentiveRule k).attends
  have responds {α : Type} {f : Parse α} (run : Paired exactly 0 f) (response : α → Response) :
      (c.step do return response (← f)).1 = (c'.step do return response (← f)).1 ∧
        Alike (c.step do return response (← f)).2 (c'.step do return response (← f)).2 :=
    h.stepped ((run.bind fun a => pairedPure (response a)) matching)
  cases r with
  | scan call => exact h.scanned heeded
  | expect o => exact responds (pairedExpect o) _
  | position => exact responds pairedCurrentPosition _
  | error message position =>
      cases message with
      | some message => exact responds (pairedErrorWith message position) _
      | none =>
          -- Without a message trivia is skipped first, which is where it counts whether anything is ahead.
          obtain ⟨e, p', q', left, right, after⟩ := matchingUnexpected h.parsers (heeded rfl) position
          apply h.stepped
          simp only [bind, EStateM.bind, left, right]
          exact .same after
  | openNode kind start => exact responds (pairedOpen kind start) _
  | complete node form stop => exact responds (pairedComplete node form stop) _
  | enter =>
      apply h.stepped
      have entered := exactly.enter (b := 0) matching
      change Matched _ _ _ _ (EStateM.bind enter _ c.parser) (EStateM.bind enter _ c'.parser)
      unfold EStateM.bind
      generalize enter c.parser = left at *
      generalize enter c'.parser = right at *
      cases entered with
      | same related => exact .same related
      | both related raised => exact .both related raised
      | alone raised => exact raised.elim
  | leave => exact ⟨rfl, ⟨h.parsers.config, congrArg (· - 1) h.parsers.depth, h.parsers.asserting, h.parsers.scanners⟩, h.marks⟩
  | rule k => exact responds (pairedRule k) _
  | list k separators => exact responds (pairedSeparatedList (pairedRule k) separators (attends k) (attends k)) _
  | fold k operators join =>
      exact responds (pairedLeftFold (pairedRule k) operators join (attentiveRule k) (attentiveRule k)) _

theorem Alike.asked (h : c.Alike c') (r : Request)
    (heeded : r.skips = true → (c.parser.scanner.ahead = [] ↔ c'.parser.scanner.ahead = [])) :
    (c.ask r).1 = (c'.ask r).1 ∧ Alike (c.ask r).2 (c'.ask r).2 := by
  obtain ⟨outcome, after⟩ := h.performed r heeded
  have abreast := unbuffered.abreast (b := 0) after.parsers
  simp only [ask, outcome, abreast.mode, abreast.lastEnd, after.parsers.depth]
  exact ⟨trivial, after⟩

theorem Alike.ran (h : c.Alike c') (requests : List Request) (heedful : Heedful requests c c') :
    run requests c = run requests c' := by
  induction requests generalizing c c' with
  | nil => rfl
  | cons r rs ih =>
      obtain ⟨heeded, more⟩ := heedful
      obtain ⟨shown, after⟩ := h.asked r heeded
      rw [run, run, shown, ih after more]

end Client

end Asking

end JsxTree
