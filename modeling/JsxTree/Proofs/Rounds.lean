import JsxTree.Proofs.Outcome

/-! Rounds of a rule. Each one consumes something, so the characters left are more than rounds
enough; what the rounds come to is put together from what each of them does. -/
namespace JsxTree.Parser

variable {α : Type} {x : Setting} {m : Mode} {d limit : Nat} {c : Cursor} {p : Parser}

def Turn (x : Setting) (m : Mode) (d : Nat) (stop : Cursor → Prop) (step : Cursor → α → Cursor → Prop)
    (c : Cursor) (p : Parser) : Option α → Parser → Prop
  | none, p' => stop c ∧ Unmoved p p'
  | some a, p' => ∃ c', step c a c' ∧ c.Advances c' ∧ Rests x m d c' p'

section Many

variable {rule : Rule α} {step : Cursor → α → Cursor → Prop} {stop : Cursor → Prop}
  {rounds : Cursor → List α → Cursor → Prop}

theorem meetsManyWithin (nil : ∀ c, stop c → rounds c [] c)
    (cons : ∀ c a c₁ as c', step c a c₁ → rounds c₁ as c' → rounds c (a :: as) c')
    (round : ∀ c p, Rests x m d c p → c.rest.length < limit →
      Meets rule p (Turn x m d stop step c p) (Failed x m d c.position))
    (bound : List Char) (h : Rests x m d c p) (room : c.rest.length < limit)
    (enough : c.rest.length ≤ bound.length) :
    Meets (manyWithin rule bound) p (fun as p' => ∃ c', rounds c as c' ∧ c.Reaches c' ∧ Rests x m d c' p')
      (Failed x m d c.position) := by
  induction bound generalizing c p with
  | nil =>
      refine (round c p h room).bind fun r p' outcome => ?_
      cases r with
      | none => exact ⟨c, nil c outcome.1, c.reachesRefl, h.unmoved outcome.2⟩
      | some a =>
          obtain ⟨c', -, advances, -⟩ := outcome
          have shorter := advances.shorter
          simp only [List.length_nil] at enough
          omega
  | cons _ bound ih =>
      refine (round c p h room).bind fun r p' outcome => ?_
      cases r with
      | none => exact ⟨c, nil c outcome.1, c.reachesRefl, h.unmoved outcome.2⟩
      | some a =>
          obtain ⟨c₁, moved, advances, rests⟩ := outcome
          have shorter := advances.shorter
          simp only [List.length_cons] at enough
          have more := (ih rests (by omega) (by omega)).earlier advances.reaches.position
          refine more.bind fun as p'' ⟨c', list, reaches, rests'⟩ => ?_
          exact ⟨c', cons c a c₁ as c' moved list, advances.reaches.trans reaches, rests'⟩

theorem meetsMany (nil : ∀ c, stop c → rounds c [] c)
    (cons : ∀ c a c₁ as c', step c a c₁ → rounds c₁ as c' → rounds c (a :: as) c')
    (round : ∀ c p, Rests x m d c p → c.rest.length < limit →
      Meets rule p (Turn x m d stop step c p) (Failed x m d c.position))
    (h : Rests x m d c p) (room : c.rest.length < limit) :
    Meets (many rule) p (fun as p' => ∃ c', rounds c as c' ∧ c.Reaches c' ∧ Rests x m d c' p')
      (Failed x m d c.position) :=
  meetsManyWithin nil cons round p.scanner.cursor.rest h room (Nat.le_of_eq (by rw [h.scanner.cursor]))

end Many

section Grow

variable {rule : α → Rule α} {step : α → Cursor → α → Cursor → Prop} {stop : Cursor → Prop}
  {grows : α → Cursor → α → Cursor → Prop} {good : α → Cursor → Prop}

theorem meetsGrowWithin (nil : ∀ a c, stop c → grows a c a c)
    (cons : ∀ a c b c₁ z c', step a c b c₁ → grows b c₁ z c' → grows a c z c')
    (round : ∀ a c p, good a c → Rests x m d c p → c.rest.length < limit →
      Meets (rule a) p (Turn x m d stop (fun c b c' => step a c b c' ∧ good b c') c p) (Failed x m d c.position))
    (bound : List Char) {a : α} (start : good a c) (h : Rests x m d c p) (room : c.rest.length < limit)
    (enough : c.rest.length ≤ bound.length) :
    Meets (growWithin rule bound a) p (fun z p' => ∃ c', grows a c z c' ∧ c.Reaches c' ∧ Rests x m d c' p')
      (Failed x m d c.position) := by
  induction bound generalizing c p a with
  | nil =>
      refine (round a c p start h room).bind fun r p' outcome => ?_
      cases r with
      | none => exact ⟨c, nil a c outcome.1, c.reachesRefl, h.unmoved outcome.2⟩
      | some b =>
          obtain ⟨c', -, advances, -⟩ := outcome
          have shorter := advances.shorter
          simp only [List.length_nil] at enough
          omega
  | cons _ bound ih =>
      refine (round a c p start h room).bind fun r p' outcome => ?_
      cases r with
      | none => exact ⟨c, nil a c outcome.1, c.reachesRefl, h.unmoved outcome.2⟩
      | some b =>
          obtain ⟨c₁, ⟨moved, good'⟩, advances, rests⟩ := outcome
          have shorter := advances.shorter
          simp only [List.length_cons] at enough
          have more := (ih good' rests (by omega) (by omega)).earlier advances.reaches.position
          refine more.result fun z p'' ⟨c', grown, reaches, rests'⟩ => ?_
          exact ⟨c', cons a c b c₁ z c' moved grown, advances.reaches.trans reaches, rests'⟩

theorem meetsGrow (nil : ∀ a c, stop c → grows a c a c)
    (cons : ∀ a c b c₁ z c', step a c b c₁ → grows b c₁ z c' → grows a c z c')
    (round : ∀ a c p, good a c → Rests x m d c p → c.rest.length < limit →
      Meets (rule a) p (Turn x m d stop (fun c b c' => step a c b c' ∧ good b c') c p) (Failed x m d c.position))
    {a : α} (start : good a c) (h : Rests x m d c p) (room : c.rest.length < limit) :
    Meets (grow rule a) p (fun z p' => ∃ c', grows a c z c' ∧ c.Reaches c' ∧ Rests x m d c' p')
      (Failed x m d c.position) :=
  meetsGrowWithin nil cons round p.scanner.cursor.rest start h room (Nat.le_of_eq (by rw [h.scanner.cursor]))

end Grow

end JsxTree.Parser
