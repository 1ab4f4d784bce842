import JsxTree.Grammar
import JsxTree.Proofs.Standing

/-! What a step of the parser comes to. A step meets two postconditions, one for its result and
one for its error, and never runs out of rounds or completes a misshapen node. -/
namespace JsxTree.Parser

variable {α β : Type}

def Meets (step : Parse α) (p : Parser) (good : α → Parser → Prop) (bad : ParseError → Parser → Prop) :
    Prop :=
  match step p with
  | .ok a p' => good a p'
  | .error (.error e) p' => bad e p'
  | .error _ _ => False

section Calculus

variable {step : Parse α} {p : Parser} {good : α → Parser → Prop} {bad : ParseError → Parser → Prop}

theorem meetsPure {a : α} (h : good a p) : Meets (pure a) p good bad := h

theorem meetsFail {e : ParseError} (h : bad e p) : Meets (fail e) p good bad := h

theorem Meets.bind {mid : α → Parser → Prop} {next : α → Parse β} {good : β → Parser → Prop}
    (first : Meets step p mid bad) (rest : ∀ a p', mid a p' → Meets (next a) p' good bad) :
    Meets (step >>= next) p good bad := by
  unfold Meets at first
  change match EStateM.bind step next p with
    | .ok a p' => good a p' | .error (.error e) p' => bad e p' | .error _ _ => False
  unfold EStateM.bind
  cases ran : step p with
  | ok a p' => rw [ran] at first; exact rest a p' first
  | error h p' =>
      rw [ran] at first
      cases h with
      | error e => exact first
      | exhausted => exact first
      | misshapen => exact first

theorem Meets.weaken {good' : α → Parser → Prop} {bad' : ParseError → Parser → Prop}
    (h : Meets step p good bad) (results : ∀ a p', good a p' → good' a p')
    (errors : ∀ e p', bad e p' → bad' e p') : Meets step p good' bad' := by
  unfold Meets at *
  split at h
  · exact results _ _ h
  · exact errors _ _ h
  · exact h

theorem Meets.result {good' : α → Parser → Prop} (h : Meets step p good bad)
    (results : ∀ a p', good a p' → good' a p') : Meets step p good' bad :=
  h.weaken results fun _ _ => id

theorem meetsScan {f : Scanner → α × Scanner}
    (h : good (f p.scanner).1 { p with scanner := (f p.scanner).2 }) : Meets (scan f) p good bad := h

end Calculus

section Outcomes

variable {ε : Type} {o : Except ε α}

theorem acceptedOf {P : α → Bool} (h : o.toOption.any P = true) : ∃ a, o = .ok a ∧ P a = true := by
  cases o with
  | ok a => exact ⟨a, rfl, h⟩
  | error e => cases h

def refusal? : Except ε α → Option ε
  | .ok _ => none
  | .error e => some e

theorem refusedOf {e : ε} (h : refusal? o = some e) : o = .error e := by
  cases o with
  | ok a => cases h
  | error e' => rw [Option.some.inj h]

end Outcomes

structure Setting where
  config : Config
  file : Option String

variable {x : Setting} {m m' : Mode} {d : Nat} {c c' : Cursor} {q : Position} {p p' : Parser}

structure Stands (x : Setting) (m : Mode) (d : Nat) (c : Cursor) (p : Parser) : Prop where
  config : p.config = x.config
  depth : p.depth = d
  scanner : p.scanner.Stands x.file m c

structure Rests (x : Setting) (m : Mode) (d : Nat) (c : Cursor) (p : Parser) : Prop where
  config : p.config = x.config
  depth : p.depth = d
  scanner : p.scanner.Rests x.file m c

theorem Rests.stands (h : Rests x m d c p) : Stands x m d c p := ⟨h.config, h.depth, h.scanner.toStands⟩

structure Unmoved (p p' : Parser) : Prop where
  config : p'.config = p.config
  depth : p'.depth = p.depth
  asserting : p'.asserting = p.asserting
  scanner : p.scanner.Foresees p'.scanner

theorem unmovedRefl (p : Parser) : Unmoved p p := ⟨rfl, rfl, rfl, .refl _⟩

theorem Unmoved.trans {p p' p'' : Parser} (h : Unmoved p p') (h' : Unmoved p' p'') : Unmoved p p'' :=
  ⟨h'.config.trans h.config, h'.depth.trans h.depth, h'.asserting.trans h.asserting, h.scanner.trans h'.scanner⟩

theorem Unmoved.lastEnd (h : Unmoved p p') : p'.scanner.lastEnd = p.scanner.lastEnd := h.scanner.same.2.1

theorem Stands.unmoved (h : Stands x m d c p) (same : Unmoved p p') : Stands x m d c p' :=
  ⟨same.config.trans h.config, same.depth.trans h.depth, h.scanner.foresees same.scanner⟩

theorem Rests.unmoved (h : Rests x m d c p) (same : Unmoved p p') : Rests x m d c p' :=
  ⟨same.config.trans h.config, same.depth.trans h.depth, h.scanner.foresees same.scanner⟩

/-- What even a step that fails keeps: mode and depth, and an end no earlier than `q`. -/
structure Keeps (x : Setting) (m : Mode) (d : Nat) (q : Position) (p : Parser) : Prop where
  config : p.config = x.config
  depth : p.depth = d
  mode : p.scanner.mode = m
  file : p.scanner.file = x.file
  lastEnd : q ≤ p.scanner.lastEnd
  valid : p.scanner.Valid

def Failed (x : Setting) (m : Mode) (d : Nat) (q : Position) (_ : ParseError) (p : Parser) : Prop :=
  Keeps x m d q p

theorem Stands.keeps (h : Stands x m d c p) (before : q ≤ p.scanner.lastEnd) : Keeps x m d q p :=
  ⟨h.config, h.depth, h.scanner.mode, h.scanner.path, before, h.scanner.valid⟩

theorem Rests.keeps (h : Rests x m d c p) (before : q ≤ c.position) : Keeps x m d q p :=
  h.stands.keeps (by rw [h.scanner.ended]; exact before)

theorem Keeps.earlier {q' : Position} (h : Keeps x m d q p) (before : q' ≤ q) : Keeps x m d q' p :=
  { h with lastEnd := Position.leTrans before h.lastEnd }

theorem Meets.earlier {step : Parse α} {good : α → Parser → Prop} {q' : Position}
    (h : Meets step p good (Failed x m d q)) (before : q' ≤ q) : Meets step p good (Failed x m d q') :=
  h.weaken (fun _ _ => id) fun _ _ failed => Keeps.earlier failed before

section Tokens

variable {bad : ParseError → Parser → Prop}

theorem meetsCurrent (h : Stands x m d c p) : Meets current p (fun t p' => Unmoved p p' ∧
    match t with
    | none => c.next? m = none
    | some t => ∃ c', c.next? m = some (t.kind, c') ∧ t.span = c.spanTo c' x.file) bad :=
  meetsScan ⟨⟨rfl, rfl, rfl, Scanner.currentForesees _⟩, h.scanner.current⟩

theorem meetsPeek (h : Stands x m d c p) : Meets peek p (fun t p' => Unmoved p p' ∧
    t.map (·.kind) = (c.next? m).bind fun (_, c') => (c'.next? m).map Prod.fst) bad :=
  meetsScan ⟨⟨rfl, rfl, rfl, Scanner.peekForesees _⟩, h.scanner.peek⟩

theorem meetsAdvance (h : Stands x m d c p) : Meets advance p (fun t p' =>
    match t with
    | none => c.next? m = none ∧ Unmoved p p'
    | some t => ∃ c', c.next? m = some (t.kind, c') ∧ t.span = c.spanTo c' x.file ∧ Rests x m d c' p')
    bad := by
  have step := h.scanner.advance
  refine meetsScan ?_
  generalize p.scanner.advance = r at *
  obtain ⟨t, s'⟩ := r
  cases t with
  | none => exact ⟨step.1, rfl, rfl, rfl, step.2⟩
  | some t =>
      obtain ⟨c', next, span, rests⟩ := step
      exact ⟨c', next, span, h.config, h.depth, rests⟩

theorem meetsConsume (h : Stands x m d c p) (ps : List String) : Meets (consume ps) p (fun t p' =>
    match t with
    | none => c.Stops ps m ∧ Unmoved p p'
    | some t => ∃ o ∈ ps, ∃ c', c.next? m = some (.punctuator o, c') ∧ t.kind = .punctuator o ∧
        t.span = c.spanTo c' x.file ∧ Rests x m d c' p') bad := by
  have step := h.scanner.consume ps
  refine meetsScan ?_
  generalize p.scanner.consume ps = r at *
  obtain ⟨t, s'⟩ := r
  cases t with
  | none => exact ⟨step.1, rfl, rfl, rfl, step.2⟩
  | some t =>
      obtain ⟨o, member, c', next, kind, span, rests⟩ := step
      exact ⟨o, member, c', next, kind, span, h.config, h.depth, rests⟩

theorem meetsCurrentIs (h : Stands x m d c p) (o : String) : Meets (currentIs o) p (fun yes p' =>
    Unmoved p p' ∧ (yes = true ↔ ∃ c', c.next? m = some (.punctuator o, c'))) bad := by
  refine (meetsCurrent h).bind fun t p' ⟨same, first⟩ => meetsPure ⟨same, ?_⟩
  cases t with
  | none => simp [first]
  | some t =>
      obtain ⟨c', next, -⟩ := first
      simp [next, Token.isPunctuatorIff]

theorem meetsPeekIs (h : Stands x m d c p) (o : String) : Meets (peekIs o) p (fun yes p' =>
    Unmoved p p' ∧ (yes = true ↔ ∃ k c' c'', c.next? m = some (k, c') ∧
      c'.next? m = some (.punctuator o, c''))) bad := by
  refine (meetsPeek h).bind fun t p' ⟨same, second⟩ => meetsPure ⟨same, ?_⟩
  have kinds : t.any (·.isPunctuator o) = true ↔ t.map (·.kind) = some (.punctuator o) := by
    cases t <;> simp [Token.isPunctuatorIff]
  rw [kinds, second]
  simp [Option.bind_eq_some_iff, Option.map_eq_some_iff]

end Tokens

section Errors

variable {good : α → Parser → Prop} {bad : ParseError → Parser → Prop}

theorem Keeps.unmoved (h : Keeps x m d q p) (same : Unmoved p p') : Keeps x m d q p' := by
  obtain ⟨cursor, lastEnd, mode, file⟩ := same.scanner.same
  exact ⟨same.config.trans h.config, same.depth.trans h.depth, mode.trans h.mode, file.trans h.file,
    by rw [lastEnd]; exact h.lastEnd, h.valid.foresees same.scanner⟩

theorem keepsCurrent (h : Keeps x m d q p) : Meets current p (fun _ p' => Keeps x m d q p') bad :=
  meetsScan (h.unmoved ⟨rfl, rfl, rfl, Scanner.currentForesees _⟩)

theorem keepsCurrentSpan (h : Keeps x m d q p) : Meets currentSpan p (fun _ p' => Keeps x m d q p') bad := by
  refine (keepsCurrent h).bind fun t p' kept => ?_
  cases t with
  | none => exact kept
  | some t => exact kept

theorem keepsFound (h : Keeps x m d q p) : Meets found p (fun _ p' => Keeps x m d q p') bad := by
  have skipped : Keeps x m d q { p with scanner := (p.scanner.skipTrivia false).2 } := by
    have valid := h.valid.skipTrivia false
    obtain same | moved := Scanner.skipTriviaSame false p.scanner
    · rw [same]; exact h
    · rw [moved] at valid ⊢
      exact ⟨h.config, h.depth, h.mode, h.file, h.lastEnd, valid⟩
  have skip : Meets (scan (Scanner.skipTrivia false)) p (fun _ p' => Keeps x m d q p') bad := skipped
  refine skip.bind fun bytes p' kept => ?_
  cases bytes with
  | none => exact kept
  | some n => exact keepsCurrent kept

theorem keepsUnexpected (h : Keeps x m d q p) (position : Option Position) :
    Meets (unexpected position) p (fun _ p' => Keeps x m d q p') bad := by
  refine (keepsFound h).bind fun t p' kept => ?_
  cases t with
  | none => cases position <;> exact kept
  | some t =>
      obtain ⟨kind, comments, span⟩ := t
      cases position <;> cases kind <;> exact kept

theorem meetsFailUnexpected (h : Keeps x m d q p) : Meets failUnexpected p good (Failed x m d q) :=
  (keepsUnexpected h none).bind fun _ _ kept => meetsFail kept

theorem meetsRequired {rule : Rule α}
    (h : Meets rule p (fun r p' => match r with
      | none => Keeps x m d q p'
      | some a => good a p') (Failed x m d q)) : Meets (required rule) p good (Failed x m d q) := by
  refine h.bind fun r p' outcome => ?_
  cases r with
  | none => exact meetsFailUnexpected outcome
  | some a => exact outcome

theorem meetsExpect (h : Stands x m d c p) (before : q ≤ p.scanner.lastEnd) (o : String) :
    Meets (expect o) p (fun t p' => ∃ c', c.next? m = some (.punctuator o, c') ∧
      t.kind = .punctuator o ∧ t.span = c.spanTo c' x.file ∧ Rests x m d c' p') (Failed x m d q) := by
  refine (meetsConsume h [o]).bind fun t p' outcome => ?_
  cases t with
  | none => exact meetsFailUnexpected ((h.keeps before).unmoved outcome.2)
  | some t =>
      obtain ⟨o', member, c', next, kind, span, rests⟩ := outcome
      cases List.mem_singleton.mp member
      exact ⟨c', next, kind, span, rests⟩

end Errors

section Nodes

variable {bad : ParseError → Parser → Prop}

theorem meetsOpenNode {good : α → Parser → Prop} {next : OpenNode → Parse α} {kind : Kind} {n : Node}
    (h : Meets (next ⟨kind, n.span.start⟩) p good bad) : Meets (openNode kind (.node n) >>= next) p good bad := h

theorem assertEq (claim : Prop) [Decidable claim] (p : Parser) :
    assert claim p = if p.asserting = true ∧ ¬claim then .error .misshapen p else .ok () p := by
  change (if p.asserting = true ∧ ¬claim then throw .misshapen else pure () : Parse Unit) p = _
  split <;> rfl

theorem assertTrue {claim : Prop} [Decidable claim] (true : claim) (p : Parser) : assert claim p = .ok () p := by
  rw [assertEq, if_neg fun failed => failed.2 true]

theorem assertReleased (released : p.asserting = false) (claim : Prop) [Decidable claim] : assert claim p = .ok () p := by
  rw [assertEq, if_neg fun failed => Bool.false_ne_true (released.symm.trans failed.1)]

theorem completePassed {node : OpenNode} {form : Form Node} {stop : Option Position}
    (passed : assert (node.kind = form.kind ∧ node.start ≤ stop.getD p.scanner.lastEnd) p = .ok () p) :
    complete node form stop p = .ok ⟨form, node.start, stop.getD p.scanner.lastEnd, p.scanner.file⟩ p := by
  simp only [complete, bind, EStateM.bind, lastEnd, passed]
  rfl

theorem meetsComplete {good : Node → Parser → Prop} {node : OpenNode} {form : Form Node}
    {stop : Option Position} (kind : node.kind = form.kind) (ordered : node.start ≤ stop.getD p.scanner.lastEnd)
    (h : good ⟨form, node.start, stop.getD p.scanner.lastEnd, p.scanner.file⟩ p) :
    Meets (complete node form stop) p good bad := by
  unfold Meets
  rw [completePassed (assertTrue ⟨kind, ordered⟩ p)]
  exact h

end Nodes

section Scopes

variable {good : α → Parser → Prop} {bad : ParseError → Parser → Prop} {body : Parse α}

theorem Stands.setMode (h : Stands x m d c p) (m' : Mode) : Stands x m' d c (p.setMode m') :=
  ⟨h.config, h.depth, h.scanner.setMode m'⟩

theorem Rests.setMode (h : Rests x m d c p) (m' : Mode) : Rests x m' d c (p.setMode m') :=
  ⟨h.config, h.depth, h.scanner.setMode m'⟩

theorem setModeSame (m : Mode) (s : Scanner) : (s.setMode m).mode = m ∧ (s.setMode m).file = s.file := by
  unfold Scanner.setMode
  split
  · rename_i same; exact ⟨same, rfl⟩
  · exact ⟨rfl, rfl⟩

theorem Keeps.setMode (h : Keeps x m d q p) (m' : Mode) : Keeps x m' d q (p.setMode m') := by
  obtain ⟨mode, file⟩ := setModeSame m' p.scanner
  exact ⟨h.config, h.depth, mode, file.trans h.file, by
    rw [show (p.setMode m').scanner.lastEnd = _ from Scanner.setModeLastEnd m' _]; exact h.lastEnd,
    h.valid.setMode m'⟩

theorem meetsWithMode (mode : p.scanner.mode = m)
    (h : Meets body (p.setMode m') (fun a p' => good a (p'.setMode m)) (Failed x m' d q)) :
    Meets (withMode m' body) p good (Failed x m d q) := by
  unfold Meets withMode at *
  cases ran : body (p.setMode m') with
  | ok a p' => rw [ran] at h; rw [mode]; exact h
  | error e p' =>
      rw [ran] at h
      cases e with
      | error e => rw [mode]; exact Keeps.setMode h m
      | exhausted => exact h
      | misshapen => exact h

theorem Stands.enter (h : Stands x m d c p) : Stands x m (d + 1) c { p with depth := p.depth + 1 } :=
  ⟨h.config, congrArg (· + 1) h.depth, h.scanner⟩

theorem Rests.enter (h : Rests x m d c p) : Rests x m (d + 1) c { p with depth := p.depth + 1 } :=
  ⟨h.config, congrArg (· + 1) h.depth, h.scanner⟩

theorem Rests.leave (h : Rests x m (d + 1) c p) : Rests x m d c p.leave :=
  ⟨h.config, by rw [Parser.leave, h.depth]; rfl, h.scanner⟩

theorem Keeps.leave (h : Keeps x m (d + 1) q p) : Keeps x m d q p.leave :=
  ⟨h.config, by rw [Parser.leave, h.depth]; rfl, h.mode, h.file, h.lastEnd, h.valid⟩

theorem meetsDeeper (kept : Keeps x m d q p)
    (h : d < x.config.maxDepth → Meets body { p with depth := p.depth + 1 }
      (fun a p' => good a p'.leave) (Failed x m (d + 1) q)) :
    Meets (deeper body) p good (Failed x m d q) := by
  have entered : Meets enter p (fun _ p' => d < x.config.maxDepth ∧ p' = { p with depth := p.depth + 1 })
      (Failed x m d q) := by
    unfold enter
    have read : Meets get p (fun r p' => r = p ∧ p' = p) (Failed x m d q) := ⟨rfl, rfl⟩
    refine read.bind ?_
    rintro _ _ ⟨rfl, rfl⟩
    split
    · exact (keepsCurrentSpan kept).bind fun _ _ kept => meetsFail kept
    · rename_i room
      rw [kept.config, kept.depth] at room
      exact ⟨Nat.lt_of_not_le room, rfl⟩
  refine entered.bind ?_
  rintro _ _ ⟨room, rfl⟩
  have run := h room
  unfold Meets at *
  dsimp only
  cases ran : body { p with depth := p.depth + 1 } with
  | ok a p' => rw [ran] at run; exact run
  | error e p' =>
      rw [ran] at run
      cases e with
      | error e => exact Keeps.leave run
      | exhausted => exact run
      | misshapen => exact run

end Scopes

end JsxTree.Parser
