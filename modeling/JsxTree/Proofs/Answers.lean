import JsxTree.Proofs.Layout
import JsxTree.Proofs.Rounds

/-! What a rule answers: a node that can be read from where the scanner stood, or nothing and then
it has not moved. Beside it the steps that all rules are built of. -/
namespace JsxTree.Grammar

open Cursor JsxTree.Parser

variable {β : Type} {x : Setting} {ph : Node → Phrase} {m : Mode} {d limit : Nat} {c c' : Cursor}
  {q : Position} {p : Parser} {bad : ParseError → Parser → Prop}

def Found (x : Setting) (ph : Node → Phrase) (m : Mode) (d : Nat) (c : Cursor) (n : Node) (p : Parser) :
    Prop := ∃ c', Reads x (ph n) m d c c' ∧ Rests x m d c' p

def Reply (x : Setting) (ph : Node → Phrase) (m : Mode) (d : Nat) (c : Cursor) (p : Parser) :
    Option Node → Parser → Prop
  | none, p' => Unmoved p p'
  | some n, p' => Found x ph m d c n p'

def Answers (x : Setting) (ph : Node → Phrase) (limit : Nat) (rule : Rule Node) : Prop :=
  ∀ m d c p, Stands x m d c p → c.rest.length < limit →
    Meets rule p (Reply x ph m d c p) (Failed x m d p.scanner.lastEnd)

theorem Answers.rests {rule : Rule Node} (h : Answers x ph limit rule) (rests : Rests x m d c p)
    (room : c.rest.length < limit) :
    Meets rule p (Reply x ph m d c p) (Failed x m d c.position) := by
  rw [← rests.scanner.ended]
  exact h m d c p rests.stands room

theorem Answers.required {rule : Rule Node} (h : Answers x ph limit rule) (rests : Rests x m d c p)
    (room : c.rest.length < limit) :
    Meets (required rule) p (Found x ph m d c) (Failed x m d c.position) := by
  refine meetsRequired ((h.rests rests room).result fun r p' reply => ?_)
  cases r with
  | none => exact (rests.keeps (Position.leRefl _)).unmoved reply
  | some n => exact reply

section Steps

theorem restsExpect (h : Rests x m d c p) (before : q ≤ c.position) (o : String) :
    Meets (expect o) p (fun t p' => ∃ c', c.Takes m o c' ∧ t.span = c.spanTo c' x.file ∧ Rests x m d c' p')
      (Failed x m d q) := by
  refine (meetsExpect h.stands (by rw [h.scanner.ended]; exact before) o).result ?_
  rintro t p' ⟨c', next, -, span, rests⟩
  exact ⟨c', next, span, rests⟩

theorem restsComplete {node : OpenNode} {form : Form Node} (h : Rests x m d c p)
    (kind : node.kind = form.kind) (ordered : node.start ≤ c.position) :
    Meets (complete node form none) p
      (fun n p' => n = ⟨form, node.start, c.position, x.file⟩ ∧ p' = p) bad := by
  have ended := h.scanner.ended
  have path := h.scanner.path
  exact meetsComplete kind (by rw [Option.getD_none, ended]; exact ordered)
    ⟨by rw [Option.getD_none, ended, path], rfl⟩

theorem restsCompleteAt {node : OpenNode} {form : Form Node} (h : Rests x m d c p) (stop : Position)
    (kind : node.kind = form.kind) (ordered : node.start ≤ stop) :
    Meets (complete node form (some stop)) p
      (fun n p' => n = ⟨form, node.start, stop, x.file⟩ ∧ p' = p) bad :=
  meetsComplete kind ordered ⟨by rw [h.scanner.path]; rfl, rfl⟩

theorem meetsTokenWhere (h : Stands x m d c p) (test : Token.Kind → Bool) :
    Meets (tokenWhere test) p (fun t p' => match t with
      | none => (∀ k c', c.next? m = some (k, c') → test k = false) ∧ Unmoved p p'
      | some t => ∃ c', c.next? m = some (t.kind, c') ∧ test t.kind = true ∧
          t.span = c.spanTo c' x.file ∧ Rests x m d c' p') bad := by
  refine (meetsCurrent h).bind fun t p' ⟨same, first⟩ => ?_
  split
  · rename_i fits
    have stands := h.unmoved same
    cases t with
    | none => simp at fits
    | some t =>
        obtain ⟨c', next, -⟩ := first
        refine (meetsAdvance stands).result fun t' p'' outcome => ?_
        cases t' with
        | none => rw [next] at outcome; cases outcome.1
        | some t' =>
            obtain ⟨c'', next', span, rests⟩ := outcome
            rw [next, Option.some.injEq, Prod.mk.injEq] at next'
            obtain ⟨kind, rfl⟩ := next'
            refine ⟨c', by rw [next, kind], ?_, span, rests⟩
            rw [← kind]
            simpa using fits
  · rename_i misfit
    refine ⟨fun k c' next => ?_, same⟩
    cases t with
    | none => rw [next] at first; cases first
    | some t =>
        obtain ⟨c'', next', -⟩ := first
        rw [next, Option.some.injEq, Prod.mk.injEq] at next'
        rw [next'.1]
        simpa using misfit

theorem meetsClosed {rule : Rule Node} (h : Answers x ph limit rule) (rests : Rests x m d c p)
    (room : c.rest.length < limit) (advances : ∀ n c', Reads x (ph n) m d c c' → c.Reaches c') (o : String) :
    Meets (do
      let n ← required rule
      let _ ← expect o
      return n) p (fun n p' => ∃ c₁ c', Reads x (ph n) m d c c₁ ∧ c₁.Takes m o c' ∧ Rests x m d c' p')
      (Failed x m d c.position) := by
  refine (h.required rests room).bind fun n p₁ ⟨c₁, reads, rests₁⟩ => ?_
  refine (restsExpect rests₁ (advances n c₁ reads).position o).bind fun t p₂ ⟨c₂, closes, _, rests₂⟩ => ?_
  exact ⟨c₁, c₂, reads, closes, rests₂⟩

end Steps

section Separated

variable {item : Rule β} {take : Cursor → β → Cursor → Prop}

def Taken (x : Setting) (m : Mode) (d : Nat) (take : Cursor → β → Cursor → Prop) (c : Cursor) (p : Parser) :
    Option β → Parser → Prop
  | none, p' => Unmoved p p'
  | some b, p' => ∃ c', take c b c' ∧ c.Reaches c' ∧ Rests x m d c' p'

theorem meetsSeparatedItem {separators : List String} (h : Rests x m d c p)
    (next : ∀ c' p', c.Advances c' → Rests x m d c' p' →
      Meets item p' (Taken x m d take c' p') (Failed x m d c'.position)) :
    Meets (separatedItem item separators) p (fun r p' => match r with
      | none => c.Stops separators m ∧ Unmoved p p'
      | some s => ∃ o ∈ separators, ∃ c₁ c', c.Takes m o c₁ ∧ (s.separator.map Token.text).getD "" = o ∧
          take c₁ s.item c' ∧ c.Advances c' ∧ Rests x m d c' p') (Failed x m d c.position) := by
  refine (meetsConsume h.stands separators).bind fun t p' outcome => ?_
  cases t with
  | none => exact outcome
  | some t =>
      obtain ⟨o, member, c₁, takes, kind, -, rests⟩ := outcome
      have moved := nextAdvances takes
      have got : Meets (required item) p' (fun b p'' => ∃ c'', take c₁ b c'' ∧ c₁.Reaches c'' ∧ Rests x m d c'' p'')
          (Failed x m d c.position) := by
        refine meetsRequired ((((next c₁ p' moved rests).earlier moved.reaches.position)).result fun r p'' reply => ?_)
        cases r with
        | none => exact (rests.keeps moved.reaches.position).unmoved reply
        | some b => exact reply
      refine got.bind fun b p'' ⟨c', taken, reaches, rests'⟩ => ?_
      exact ⟨o, member, c₁, c', takes, by simp [Token.text, kind, Token.Kind.text], taken, moved.then reaches, rests'⟩

end Separated

end JsxTree.Grammar
