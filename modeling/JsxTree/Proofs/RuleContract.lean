import JsxTree.Proofs.Idle

/-! What calling a rule does to the parser, from every state that operations can bring about: text
read and not consumed, tokens ahead, any mode and any depth among them. -/
namespace JsxTree.Parser

open Grammar

inductive Move : Scanner → Scanner → Prop where
  | current (s : Scanner) : Move s s.current.2
  | peek (s : Scanner) : Move s s.peek.2
  | atEnd (s : Scanner) : Move s s.atEnd.2
  | advance (s : Scanner) : Move s s.advance.2
  | consume (ps : List String) (s : Scanner) : Move s (s.consume ps).2
  | readText (s : Scanner) : Move s s.readText.2
  | skipTrivia (required : Bool) (s : Scanner) : Move s (s.skipTrivia required).2
  | setMode (m : Mode) (s : Scanner) : Move s (s.setMode m)

def after (p : Parser) (k : Construct) : Parser :=
  match rule k p with
  | .ok _ p' => p'
  | .error _ p' => p'

inductive Step : Parser → Parser → Prop where
  | scanner {p : Parser} {s : Scanner} (move : Move p.scanner s) : Step p { p with scanner := s }
  | enter {p : Parser} (room : p.depth < p.config.maxDepth) : Step p { p with depth := p.depth + 1 }
  | leave {p : Parser} (entered : 0 < p.depth) : Step p p.leave
  | rule (k : Construct) (p : Parser) : Step p (p.after k)

inductive Reachable (source : String) (config : Config) (file : Option String) : Parser → Prop where
  | start : Reachable source config file (.start source config file)
  | step {p p' : Parser} (before : Reachable source config file p) (step : Step p p') :
      Reachable source config file p'
  | rewind {p earlier : Parser} (now : Reachable source config file p)
      (marked : Reachable source config file earlier) :
      Reachable source config file { p with scanner := p.scanner.rewind earlier.scanner.checkpoint }

structure Kept (p p' : Parser) : Prop where
  mode : p'.scanner.mode = p.scanner.mode
  depth : p'.depth = p.depth
  lastEnd : p.scanner.lastEnd ≤ p'.scanner.lastEnd

structure Consumed (p p' : Parser) : Prop extends Kept p p' where
  token : ∃ t, p.scanner.current.1 = some t ∧ t.span.stop ≤ p'.scanner.lastEnd
  farther : p.scanner.lastEnd.offset < p'.scanner.lastEnd.offset

structure Untouched (p p' : Parser) : Prop extends Kept p p' where
  same : p'.scanner.lastEnd = p.scanner.lastEnd
  cursor : p'.scanner.cursor = p.scanner.cursor
  upcoming : ∀ n, p'.scanner.upcoming n = p.scanner.upcoming n

variable {p p' : Parser} {s s' : Scanner}

theorem Unmoved.untouched (h : Unmoved p p') : Untouched p p' := by
  obtain ⟨cursor, lastEnd, mode, -⟩ := h.scanner.same
  exact ⟨⟨mode, h.depth, by rw [lastEnd]; exact Position.leRefl _⟩, lastEnd, cursor, h.scanner.upcoming⟩

section Reachable

variable {source : String} {config : Config} {file : Option String} {k : Construct}

/-- A rule's outcome, of whichever kind, seen from the state in front of it. -/
def Contract (k : Construct) (p : Parser) : Prop :=
  match rule k p with
  | .ok (some _) p' => Consumed p p'
  | .ok none p' => Untouched p p'
  | .error h p' => Kept p p' ∧ ∃ e, h = .error e

theorem phraseBegins {x : Setting} {m : Mode} {d : Nat} {c c' : Cursor} {n : Node}
    (h : Reads x (Construct.phrase k n) m d c c') : ∃ o c₁, c.next? m = some (o, c₁) ∧ c₁.Reaches c' ∧ c.Advances c' := by
  have begins := h.begins
  have goes := h.goes
  cases k with
  | expression | unary =>
      obtain ⟨o, c₁, next, -, reaches⟩ := begins
      exact ⟨o, c₁, next, reaches, goes⟩
  | fragment | element =>
      obtain ⟨c₁, next, reaches⟩ := begins
      exact ⟨_, c₁, next, reaches, goes⟩

theorem standsSelf (h : p.scanner.Stands p.scanner.file p.scanner.mode p.scanner.cursor) :
    Stands ⟨p.config, p.scanner.file⟩ p.scanner.mode p.depth p.scanner.cursor p := ⟨rfl, rfl, h⟩

theorem standsContract (k : Construct) (h : p.scanner.Stands p.scanner.file p.scanner.mode p.scanner.cursor) :
    Contract k p ∧ (p.after k).scanner.Valid := by
  have answer := ruleAnswers k (standsSelf h)
  unfold Meets at answer
  unfold Contract after
  -- The answer says more than the contract, which forgets the phrase that was read.
  cases ran : rule k p with
  | ok r p' =>
      rw [ran] at answer
      cases r with
      | none =>
          have same : Unmoved p p' := answer
          exact ⟨same.untouched, h.valid.foresees same.scanner⟩
      | some n =>
          obtain ⟨c', reads, rests⟩ := answer
          obtain ⟨o, c₁, next, reaches, advances⟩ := phraseBegins reads
          have ended := rests.scanner.ended
          refine ⟨⟨⟨rests.scanner.mode, rests.depth, ?_⟩, ?_, ?_⟩, rests.scanner.toStands.valid⟩
          · rw [ended]
            exact Position.leTrans h.behind advances.reaches.position
          · have first := h.current
            cases current : p.scanner.current.1 with
            | none => rw [current, next] at first; cases first
            | some t =>
                rw [current] at first
                obtain ⟨c₂, next', span⟩ := first
                obtain ⟨-, rfl⟩ : o = t.kind ∧ c₁ = c₂ := by rw [next] at next'; simpa using next'
                refine ⟨t, rfl, ?_⟩
                rw [span, ended]
                exact reaches.position
          · rw [ended]
            have behind : p.scanner.lastEnd.offset ≤ p.scanner.cursor.place.offset := h.behind
            exact Nat.lt_of_le_of_lt behind advances.farther
  | error e p' =>
      rw [ran] at answer
      cases e with
      | error e =>
          have kept : Keeps _ _ _ _ p' := answer
          exact ⟨⟨⟨kept.mode, kept.depth, kept.lastEnd⟩, e, rfl⟩, kept.valid⟩
      | exhausted => exact answer.elim
      | misshapen => exact answer.elim

theorem validContract (k : Construct) (h : p.scanner.Valid) : Contract k p ∧ (p.after k).scanner.Valid := by
  cases h with
  | inl stands => exact standsContract k stands
  | inr pending =>
      obtain ⟨p', ran, same⟩ := silentRule k (pendingSilent pending)
      unfold Contract after
      rw [ran]
      exact ⟨same.untouched, .inr (pending.foresees same.scanner)⟩

theorem Move.valid (move : Move s s') (h : s.Valid) : s'.Valid := by
  cases move with
  | current | atEnd => exact h.foresees (Scanner.currentForesees s)
  | peek => exact h.foresees (Scanner.peekForesees s)
  | advance => exact h.advance
  | consume ps => exact h.consume ps
  | readText => exact h.readText
  | skipTrivia required => exact h.skipTrivia required
  | setMode m => exact h.setMode m

theorem Step.valid (step : Step p p') (h : p.scanner.Valid) : p'.scanner.Valid := by
  cases step with
  | scanner move => exact move.valid h
  | enter | leave => exact h
  | rule k => exact (validContract k h).2

theorem Reachable.valid (h : Reachable source config file p) : p.scanner.Valid := by
  induction h with
  | start => exact Scanner.startValid source file
  | step _ step ih => exact step.valid ih
  | rewind _ _ _ marked => exact marked.rewind _

/-- Every rule, called in any state that can be reached: with a node it has consumed the current
token, with no match it has consumed nothing, and mode and depth are always what they were. -/
theorem reachableContract (k : Construct) (h : Reachable source config file p) : Contract k p :=
  (validContract k h.valid).1

theorem contractBehindText : ∃ p, Reachable "a</b>" ⟨1, true⟩ none p ∧ p.depth = 1 ∧ p.scanner.ahead ≠ [] ∧
    Contract .element p := by
  have begun : Reachable "a</b>" ⟨1, true⟩ none (.start "a</b>" ⟨1, true⟩ none) := .start
  have entered := begun.step (.enter (by decide))
  have read := entered.step (.scanner (.readText _))
  exact ⟨_, read, rfl, by decide, reachableContract .element read⟩

end Reachable

end JsxTree.Parser
