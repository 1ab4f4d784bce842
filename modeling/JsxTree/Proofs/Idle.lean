import JsxTree.Proofs.Expressions

/-! States in which no rule matches: no expression begins with the current token. This is settled
by the token alone, so it covers runs of text that were read and not consumed. -/
namespace JsxTree.Parser

open Grammar

variable {α : Type} {p p' : Parser} {s s' : Scanner} {bad : ParseError → Parser → Prop}

def Silent (p : Parser) : Prop := ∀ t, p.scanner.current.1 = some t → startsExpression t.kind = false

theorem currentAdvances (s : Scanner) : s.current.1 = s.advance.1 := by
  simp only [Scanner.current, Scanner.advance]
  cases (s.fill 1).ahead <;> rfl

theorem Silent.unmoved (h : Silent p) (same : Unmoved p p') : Silent p' := by
  intro t current
  rw [currentAdvances, same.scanner.advance.1, ← currentAdvances] at current
  exact h t current

theorem pendingSilent (h : p.scanner.Pending) : Silent p := by
  obtain ⟨⟨a, as, raw, ahead, kind, -, -⟩, -⟩ := h
  intro t current
  rw [currentAdvances, Scanner.advanceCons ahead] at current
  cases current
  rw [kind]
  rfl

theorem standsSilent {x : Setting} {m : Mode} {d : Nat} {c : Cursor} (h : Stands x m d c p)
    (begins : ∀ k c', c.next? m = some (k, c') → startsExpression k = false) : Silent p := by
  intro t current
  have first := h.scanner.current
  rw [current] at first
  obtain ⟨c', next, -⟩ := first
  exact begins t.kind c' next

def Idle (bad : ParseError → Parser → Prop) (rule : Rule α) (p : Parser) : Prop :=
  Meets rule p (fun r p' => r = none ∧ Unmoved p p') bad

theorem Idle.fold {operand : Rule Node} (h : Idle bad operand p) (operators : List String) (join : Join) :
    Idle bad (leftFold operand operators join) p := by
  have first : Idle bad (operandWithEnd operand) p := by
    refine Meets.bind h ?_
    rintro _ p₁ ⟨rfl, same⟩
    exact ⟨rfl, same⟩
  have listed : Meets (separatedList (operandWithEnd operand) operators) p
      (fun r p' => r = [] ∧ Unmoved p p') bad := by
    refine Meets.bind first ?_
    rintro _ p₁ ⟨rfl, same⟩
    exact ⟨rfl, same⟩
  refine Meets.bind listed ?_
  rintro _ p₁ ⟨rfl, same⟩
  exact ⟨rfl, same⟩

theorem silentCurrent (h : Silent p) : Meets current p
    (fun r p' => (∀ t, r = some t → startsExpression t.kind = false) ∧ Unmoved p p') bad :=
  meetsScan ⟨h, rfl, rfl, rfl, Scanner.currentForesees _⟩

theorem silentCurrentIs (h : Silent p) {o : String} (start : startsExpression (.punctuator o) = true) :
    Meets (currentIs o) p (fun yes p' => yes = false ∧ Unmoved p p') bad := by
  refine (silentCurrent h).bind fun r p₁ ⟨other, same⟩ => ⟨?_, same⟩
  cases r with
  | none => rfl
  | some t =>
      have no := other t rfl
      refine Bool.eq_false_iff.mpr fun yes => ?_
      rw [Token.isPunctuatorIff.mp yes, start] at no
      cases no

theorem silentConsume (h : Silent p) {ps : List String} (start : ∀ o ∈ ps, startsExpression (.punctuator o) = true) :
    Idle bad (consume ps) p := by
  have misfit : p.scanner.current.1.any (fun t => ps.any t.isPunctuator) = false := by
    cases current : p.scanner.current.1 with
    | none => rfl
    | some t =>
        have no := h t current
        refine Bool.eq_false_iff.mpr fun yes => ?_
        obtain ⟨o, member, fits⟩ := List.any_eq_true.mp yes
        rw [Token.isPunctuatorIff.mp fits, start o member] at no
        cases no
  have result : p.scanner.consume ps = (none, p.scanner.current.2) := by
    simp only [Scanner.consume]
    rw [if_neg (by rw [misfit]; exact Bool.false_ne_true)]
  refine meetsScan ?_
  rw [result]
  exact ⟨rfl, rfl, rfl, rfl, Scanner.currentForesees _⟩

theorem silentPrimary (inner : Inner) (h : Silent p) : Idle bad (primary inner) p := by
  refine Meets.bind (silentCurrent h) fun r q ⟨other, same⟩ => ?_
  cases r with
  | none => exact ⟨rfl, same⟩
  | some t =>
      have no := other t rfl
      have readConfig : Meets get q (fun r p' => r = q ∧ p' = q) bad := ⟨rfl, rfl⟩
      have notIdentifier : isIdentifier t.kind = false := by
        cases kind : t.kind <;> rw [kind] at no <;> first | rfl | cases no
      have notLiteral : t.kind.isLiteral = false := by
        cases kind : t.kind <;> rw [kind] at no <;> first | rfl | cases no
      have notPunctuator : ∀ {o}, startsExpression (.punctuator o) = true → t.isPunctuator o = false := by
        intro o start
        refine Bool.eq_false_iff.mpr fun yes => ?_
        rw [Token.isPunctuatorIff.mp yes, start] at no
        cases no
      simp only [notIdentifier, notLiteral, @notPunctuator "(" rfl, @notPunctuator "<" rfl]
      refine readConfig.bind ?_
      rintro _ _ ⟨rfl, rfl⟩
      exact ⟨rfl, same⟩

theorem silentUnary (inner : Inner) (h : Silent p) : Idle bad (Grammar.unary inner) p := by
  have prefixes : ∀ o ∈ prefixOperators, startsExpression (.punctuator o) = true := by decide
  refine Meets.bind (silentConsume h prefixes) ?_
  rintro _ p₁ ⟨rfl, same⟩
  have chain : Idle bad (callOrMember inner) p₁ := by
    refine Meets.bind (silentPrimary inner (h.unmoved same)) ?_
    rintro _ p₂ ⟨rfl, same'⟩
    exact ⟨rfl, same'⟩
  exact chain.result fun r p₂ ⟨nothing, same'⟩ => ⟨nothing, same.trans same'⟩

theorem silentLadder (inner : Inner) (h : Silent p) (levels : List Level) : Idle bad
    (levels.foldr (fun level operand => leftFold operand level.operators level.join) (Grammar.unary inner)) p := by
  induction levels with
  | nil => exact silentUnary inner h
  | cons level levels ih => exact ih.fold level.operators level.join

theorem silentConstruct (inner : Inner) (k : Construct) (h : Silent p) : Idle bad (construct inner k) p := by
  cases k with
  | expression => exact silentLadder inner h levels
  | unary => exact silentUnary inner h
  | fragment =>
      refine Meets.bind (silentCurrentIs h rfl) ?_
      rintro _ p₁ ⟨rfl, same⟩
      exact ⟨rfl, same⟩
  | element =>
      refine Meets.bind (silentCurrentIs h rfl) ?_
      rintro _ p₁ ⟨rfl, same⟩
      exact ⟨rfl, same⟩

theorem silentRule (k : Construct) (h : Silent p) : ∃ p', rule k p = .ok none p' ∧ Unmoved p p' := by
  have idle : Idle (fun _ _ => False) (construct (within p.scanner.cursor.rest.length) k) p :=
    silentConstruct _ k h
  unfold Idle Meets at idle
  change ∃ p', construct (within p.scanner.cursor.rest.length) k p = _ ∧ _
  cases ran : construct (within p.scanner.cursor.rest.length) k p with
  | ok r p' =>
      rw [ran] at idle
      exact ⟨p', by rw [idle.1], idle.2⟩
  | error e p' =>
      rw [ran] at idle
      cases e <;> exact idle.elim

end JsxTree.Parser
