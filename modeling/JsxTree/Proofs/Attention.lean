import JsxTree.Proofs.Bufferless
import JsxTree.Proofs.Idle

/-! No rule turns away from a token without having looked at it. Where a rule does not match, the current token has been
read ahead, or the input is at its end. -/
namespace JsxTree

open JsxTree.Parser

def Scanner.Looked (s : Scanner) : Prop := s.fill 1 = s

namespace Scanner

theorem lookedCons {s : Scanner} {a : Ahead} {as : List Ahead} (ahead : s.ahead = a :: as) : s.Looked := by
  rw [Looked, fillOne, if_neg (by simp [ahead])]

theorem fillLooked (n : Nat) (s : Scanner) : (s.fill (n + 1)).Looked := by
  cases ahead : (s.fill (n + 1)).ahead with
  | nil =>
      have all := fillAll (n + 1) s
      have ended := all.resolve_left (by simp [ahead])
      rw [Looked, fillOne, if_pos ahead, readAheadOf, ended, Option.toList_none, List.append_nil]
  | cons a as => exact lookedCons ahead

theorem currentLooked (s : Scanner) : s.current.2.Looked := fillLooked 0 s

theorem peekLooked (s : Scanner) : s.peek.2.Looked := fillLooked 1 s

theorem advanceLooked {s : Scanner} (none : s.advance.1 = none) : s.advance.2.Looked := by
  simp only [advance] at *
  cases ahead : (s.fill 1).ahead with
  | nil => exact fillLooked 0 s
  | cons a as => simp [ahead] at none

theorem consumeLooked {ps : List String} {s : Scanner} (none : (s.consume ps).1 = none) : (s.consume ps).2.Looked := by
  simp only [consume] at *
  split at none
  · rename_i fits
    rw [if_pos fits]
    exact advanceLooked none
  · rename_i other
    rw [if_neg other]
    exact currentLooked s

end Scanner

namespace Parser

variable {α β : Type} {p p' : Parser} {rule : Parse (Option α)}

def Attentive (rule : Parse (Option α)) : Prop := ∀ ⦃p p'⦄, rule p = .ok none p' → p'.scanner.Looked

def Matches (rule : Parse (Option α)) : Prop := ∀ ⦃p p'⦄, rule p ≠ .ok none p'

theorem ranBind {step : Parse α} {next : α → Parse β} {b : β} (ran : (step >>= next) p = .ok b p') :
    ∃ a p₁, step p = .ok a p₁ ∧ next a p₁ = .ok b p' := by
  change EStateM.bind step next p = _ at ran
  unfold EStateM.bind at ran
  cases begun : step p with
  | ok a p₁ =>
      rw [begun] at ran
      exact ⟨a, p₁, rfl, ran⟩
  | error e p₁ =>
      rw [begun] at ran
      cases ran

theorem Matches.attentive (h : Matches rule) : Attentive rule := fun _ _ ran => absurd ran (@h _ _)

theorem matchesSome (a : α) : Matches (pure (some a)) := fun _ _ ran => by cases ran

theorem Matches.bind {step : Parse α} {next : α → Parse (Option β)} (h : ∀ a, Matches (next a)) :
    Matches (step >>= next) := by
  intro p p' ran
  obtain ⟨a, p₁, -, rest⟩ := ranBind ran
  exact h a rest

theorem matchesReturn (step : Parse α) : Matches (do return some (← step)) := Matches.bind fun a => matchesSome a

theorem matchesFail : Matches (failUnexpected : Parse (Option α)) := by
  intro p p' ran
  obtain ⟨e, p₁, -, failed⟩ := ranBind ran
  cases failed

theorem matchesNode (kind : Kind) (start : Start) (form : Form Node) (stop : Option Position) :
    Matches (do let node ← openNode kind start; return some (← complete node form stop)) :=
  Matches.bind fun _ => matchesReturn _

theorem Attentive.bind {step : Parse α} {next : α → Parse (Option β)} (h : ∀ a, Attentive (next a)) :
    Attentive (step >>= next) := by
  intro p p' ran
  obtain ⟨a, p₁, -, rest⟩ := ranBind ran
  exact h a rest

theorem Attentive.over {next : Option α → Parse (Option β)} (h : Attentive rule) (absent : next none = pure none)
    (present : ∀ a, Attentive (next (some a))) : Attentive (rule >>= next) := by
  intro p p' ran
  obtain ⟨r, p₁, begun, rest⟩ := ranBind ran
  cases r with
  | none =>
      rw [absent] at rest
      cases rest
      exact h begun
  | some a => exact present a rest

theorem attentiveScan {f : Scanner → Option α × Scanner} (h : ∀ s, (f s).1 = none → (f s).2.Looked) : Attentive (scan f) := by
  intro p p' ran
  simp only [scan, EStateM.Result.ok.injEq] at ran
  obtain ⟨answer, rfl⟩ := ran
  exact h p.scanner answer

theorem attentiveAdvance : Attentive advance := attentiveScan fun _ => Scanner.advanceLooked

theorem attentiveConsume (ps : List String) : Attentive (consume ps) := attentiveScan fun _ => Scanner.consumeLooked

def Looks (step : Parse α) : Prop := ∀ ⦃p a p'⦄, step p = .ok a p' → p'.scanner.Looked

theorem Looks.map {step : Parse α} (h : Looks step) (f : α → β) : Looks (do return f (← step)) := by
  intro p a p' ran
  obtain ⟨a, p₁, begun, rest⟩ := ranBind ran
  cases rest
  exact h begun

theorem looksScan {f : Scanner → α × Scanner} (h : ∀ s, (f s).2.Looked) : Looks (scan f) := by
  intro p a p' ran
  simp only [scan, EStateM.Result.ok.injEq] at ran
  obtain ⟨-, rfl⟩ := ran
  exact h p.scanner

theorem looksCurrentIs (o : String) : Looks (currentIs o) := (looksScan Scanner.currentLooked).map _

theorem looksPeekIs (o : String) : Looks (peekIs o) := (looksScan Scanner.peekLooked).map _

theorem Looks.over {step : Parse α} {next : α → Parse (Option β)} (h : Looks step)
    (each : ∀ a, next a = pure none ∨ Attentive (next a)) : Attentive (step >>= next) := by
  intro p p' ran
  obtain ⟨a, p₁, begun, rest⟩ := ranBind ran
  rcases each a with turned | attentive
  · rw [turned] at rest
    cases rest
    exact h begun
  · exact attentive rest

theorem attentiveSeparatedList {item : Parse (Option α)} {separators : List String} {next : List (Separated α) → Parse (Option β)}
    (h : Attentive item) (empty : next [] = pure none) (some : ∀ first more, Attentive (next (first :: more))) :
    Attentive (separatedList item separators >>= next) := by
  intro p p' ran
  obtain ⟨items, p₁, listed, rest⟩ := ranBind ran
  obtain ⟨r, p₂, begun, more⟩ := ranBind listed
  cases r with
  | none =>
      cases more
      rw [empty] at rest
      cases rest
      exact h begun
  | some a =>
      obtain ⟨others, p₃, -, whole⟩ := ranBind more
      cases whole
      exact some _ _ rest

theorem Attentive.operandWithEnd {operand : Parse (Option Node)} (h : Attentive operand) :
    Attentive (operandWithEnd operand) :=
  h.over rfl fun _ => (Matches.bind fun _ => matchesSome _).attentive

theorem attentiveLeftFold {operand : Parse (Option Node)} (h : Attentive operand) (operators : List String) (join : Join) :
    Attentive (leftFold operand operators join) :=
  attentiveSeparatedList h.operandWithEnd rfl fun _ _ => (matchesReturn _).attentive

end Parser

namespace Grammar

variable {inner : Inner}

theorem attentiveTokenWhere (test : Token.Kind → Bool) : Attentive (tokenWhere test) := by
  refine (looksScan Scanner.currentLooked).over fun t => ?_
  split
  · exact .inr attentiveAdvance
  · exact .inl rfl

theorem attentiveJsxIdentifier : Attentive jsxIdentifier :=
  (attentiveTokenWhere _).over rfl fun _ => (matchesNode _ _ _ _).attentive

theorem attentiveName (chained : Bool) : Attentive (name chained) := by
  refine attentiveJsxIdentifier.over rfl fun first => Attentive.bind fun colon => ?_
  cases colon with
  | none =>
      cases chained with
      | true => exact (matchesReturn _).attentive
      | false => exact (matchesSome _).attentive
  | some _ => exact Attentive.bind fun _ => (matchesNode _ _ _ _).attentive

theorem attentiveIdentifier : Attentive identifier :=
  (attentiveTokenWhere _).over rfl fun _ => (matchesNode _ _ _ _).attentive

theorem attentiveFragment (inner : Inner) : Attentive (fragment inner) := by
  refine (looksCurrentIs "<").over fun less => ?_
  split
  · refine .inr ((looksPeekIs ">").over fun greater => ?_)
    split
    · exact .inr (matchesReturn _).attentive
    · exact .inl rfl
  · exact .inl rfl

theorem attentiveElement (inner : Inner) : Attentive (element inner) := by
  refine (looksCurrentIs "<").over fun less => ?_
  split
  · refine .inr ((looksPeekIs "/").over fun slash => ?_)
    split
    · exact .inl rfl
    · exact .inr (matchesReturn _).attentive
  · exact .inl rfl

theorem literalLooked {p p' : Parser} {token : Token} (seen : p.scanner.current.1 = some token)
    (known : token.kind.isLiteral = true) (ran : literalToken { p with scanner := p.scanner.current.2 } = .ok none p') :
    p'.scanner.Looked := by
  obtain ⟨t, p₁, begun, rest⟩ := ranBind ran
  simp only [advance, scan, EStateM.Result.ok.injEq] at begun
  rw [Scanner.advanceCurrent] at begun
  obtain ⟨taken, rfl⟩ := begun
  cases t with
  | none =>
      cases rest
      exact Scanner.advanceLooked taken
  | some t =>
      rw [← currentAdvances, seen] at taken
      cases taken
      cases value : literalValue? token.kind with
      | none => cases kind : token.kind <;> rw [kind] at value known <;> first | exact absurd known Bool.false_ne_true | exact absurd value (Option.some_ne_none _)
      | some v =>
          simp only [literal, value] at rest
          exact absurd rest (@matchesNode _ _ _ _ _ _)

theorem attentivePrimary (inner : Inner) : Attentive (primary inner) := by
  intro p p' ran
  obtain ⟨t, p₁, begun, rest⟩ := ranBind ran
  simp only [current, scan, EStateM.Result.ok.injEq] at begun
  obtain ⟨seen, rfl⟩ := begun
  cases t with
  | none =>
      cases rest
      exact Scanner.currentLooked _
  | some token =>
      -- Where no branch goes on to read, the look at the token in front is the only one there was.
      dsimp only at rest
      split at rest
      · exact attentiveIdentifier rest
      split at rest
      · rename_i known
        exact literalLooked seen known rest
      split at rest
      · exact (matchesReturn _).attentive rest
      obtain ⟨_, p₂, got, rest⟩ := ranBind rest
      cases got
      split at rest
      · exact (Attentive.bind fun r => by
          cases r with
          | none => exact attentiveElement inner
          | some a => exact (matchesSome a).attentive) rest
      · cases rest
        exact Scanner.currentLooked _

theorem attentiveUnary (inner : Inner) : Attentive (unary inner) := by
  have operand : Attentive (callOrMember inner) := (attentivePrimary inner).over rfl fun _ => (matchesReturn _).attentive
  refine Attentive.bind fun operator => ?_
  cases operator with
  | none => exact operand
  | some _ =>
      refine (Matches.bind fun r => ?_).attentive
      cases r with
      | none => exact matchesFail
      | some _ => exact matchesNode _ _ _ _

theorem attentiveLadder (inner : Inner) (levels : List Level) : Attentive
    (levels.foldr (fun level operand => leftFold operand level.operators level.join) (unary inner)) := by
  induction levels with
  | nil => exact attentiveUnary inner
  | cons level tighter ih => exact attentiveLeftFold ih level.operators level.join

theorem attentiveConstruct (inner : Inner) (c : Construct) : Attentive (construct inner c) := by
  cases c with
  | expression => exact attentiveLadder inner levels
  | unary => exact attentiveUnary inner
  | fragment => exact attentiveFragment inner
  | element => exact attentiveElement inner

theorem attentiveWithin (budget : Nat) (c : Construct) : Attentive (within budget c) := by
  cases budget with
  | zero =>
      intro p p' ran
      cases ran
  | succ budget => exact attentiveConstruct _ c

end Grammar

end JsxTree
