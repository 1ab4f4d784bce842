import JsxTree.Proofs.Idle

/-! What a rule gives where its tokens are known. Each rule is run here over rules for the constructs
inside of which the same is taken for granted, and no step of it can fail. -/
namespace JsxTree.Grammar

open Cursor JsxTree.Parser

variable {α : Type} {x : Setting} {m : Mode} {d b : Nat} {c c₁ c' : Cursor} {p : Parser} {o : String}
  {n : Node} {inner : Inner} {bad : ParseError → Parser → Prop}

def Never : ParseError → Parser → Prop := fun _ _ => False

section Steps

theorem takesConsume (h : Stands x m d c p) {ps : List String} (takes : c.Takes m o c₁) (known : o ∈ ps) :
    Meets (consume ps) p (fun r p' => ∃ t, r = some t ∧ t.kind = .punctuator o ∧
      t.span = c.spanTo c₁ x.file ∧ Rests x m d c₁ p') bad := by
  refine (meetsConsume h ps).result fun r p' outcome => ?_
  cases r with
  | none => exact absurd known (outcome.1 o c₁ takes)
  | some t =>
      obtain ⟨o', -, c₂, next, kind, span, rests⟩ := outcome
      obtain ⟨rfl, rfl⟩ : o = o' ∧ c₁ = c₂ := by rw [takes] at next; simpa using next
      exact ⟨t, rfl, kind, span, rests⟩

theorem stopsConsume (h : Stands x m d c p) {ps : List String} (stops : c.Stops ps m) : Idle bad (consume ps) p := by
  refine (meetsConsume h ps).result fun r p' outcome => ?_
  cases r with
  | none => exact ⟨rfl, outcome.2⟩
  | some t =>
      obtain ⟨o', member, c₂, next, -, -, -⟩ := outcome
      exact absurd member (stops o' c₂ next)

theorem stopsOf {k : Token.Kind} {ps : List String} (next : c.next? m = some (k, c₁))
    (other : ∀ o ∈ ps, k ≠ .punctuator o) : c.Stops ps m := by
  intro o c₂ found member
  rw [next] at found
  exact other o member (by simp at found; exact found.1)

theorem takesExpect (h : Stands x m d c p) (takes : c.Takes m o c₁) : Meets (expect o) p
    (fun t p' => t.span = c.spanTo c₁ x.file ∧ Rests x m d c₁ p') bad := by
  refine (takesConsume h takes (List.mem_singleton_self o)).bind ?_
  rintro _ p' ⟨t, rfl, -, span, rests⟩
  exact ⟨span, rests⟩

theorem yieldsRequired {rule : Rule α} {good : α → Parser → Prop}
    (h : Meets rule p (fun r p' => ∃ a, r = some a ∧ good a p') bad) : Meets (required rule) p good bad := by
  refine h.bind ?_
  rintro _ p' ⟨a, rfl, met⟩
  exact met

end Steps

def Gives (x : Setting) (step : Parse α) (a : α) (m : Mode) (d : Nat) (c c' : Cursor) : Prop :=
  ∀ p, Rests x m d c p → Meets step p (fun r p' => r = a ∧ Rests x m d c' p') Never

abbrev Yields (x : Setting) (rule : Rule α) (a : α) : Mode → Nat → Cursor → Cursor → Prop :=
  Gives x rule (some a)

def Passes (x : Setting) (rule : Rule α) (m : Mode) (d : Nat) (c : Cursor) : Prop :=
  ∀ p, Rests x m d c p → Idle Never rule p

theorem givesRequired {rule : Rule α} {a : α} (h : Yields x rule a m d c c') : Gives x (required rule) a m d c c' := by
  intro p rests
  refine yieldsRequired ((h p rests).result ?_)
  rintro _ p' ⟨rfl, rests'⟩
  exact ⟨a, rfl, rfl, rests'⟩

theorem givesDeeper {body : Parse α} {a : α} (room : d < x.config.maxDepth) (h : Gives x body a m (d + 1) c c') :
    Gives x (deeper body) a m d c c' := by
  intro p rests
  have entered : Meets enter p (fun _ p' => p' = { p with depth := p.depth + 1 }) Never := by
    unfold enter
    have read : Meets get p (fun r p' => r = p ∧ p' = p) Never := ⟨rfl, rfl⟩
    refine read.bind ?_
    rintro _ _ ⟨rfl, rfl⟩
    rw [if_neg (by rw [rests.config, rests.depth]; exact Nat.not_le_of_lt room)]
    rfl
  refine entered.bind ?_
  rintro _ _ rfl
  have run := h _ rests.enter
  unfold Meets at *
  cases ran : body { p with depth := p.depth + 1 } with
  | ok r p' =>
      rw [ran] at run
      dsimp only
      rw [ran]
      exact ⟨run.1, run.2.leave⟩
  | error e p' =>
      rw [ran] at run
      cases e <;> exact run.elim

theorem givesWithMode {body : Parse α} {a : α} {m' : Mode} (h : Gives x body a m' d c c') :
    Gives x (withMode m' body) a m d c c' := by
  intro p rests
  have run := h _ (rests.setMode m')
  unfold Meets withMode at *
  rw [rests.scanner.mode]
  cases ran : body (p.setMode m') with
  | ok r p' =>
      rw [ran] at run
      exact ⟨run.1, run.2.setMode m⟩
  | error e p' =>
      rw [ran] at run
      cases e <;> exact run.elim

section Loops

def Collects (x : Setting) (rule : Rule α) (good : List α → Prop) (m : Mode) (d : Nat) (c c' : Cursor) : Prop :=
  ∀ bound : List Char, c.rest.length ≤ bound.length → ∀ p, Rests x m d c p →
    Meets (manyWithin rule bound) p (fun as p' => good as ∧ Rests x m d c' p') Never

theorem Collects.many {rule : Rule α} {good : List α → Prop} (h : Collects x rule good m d c c')
    (rests : Rests x m d c p) : Meets (many rule) p (fun as p' => good as ∧ Rests x m d c' p') Never :=
  h p.scanner.cursor.rest (Nat.le_of_eq (by rw [rests.scanner.cursor])) p rests

theorem collectsStop {rule : Rule α} {good : List α → Prop} (h : Passes x rule m d c) (nil : good []) :
    Collects x rule good m d c c := by
  intro bound _ p rests
  cases bound with
  | nil =>
      refine Meets.bind (h p rests) ?_
      rintro _ p' ⟨rfl, same⟩
      exact ⟨nil, rests.unmoved same⟩
  | cons _ bound =>
      refine Meets.bind (h p rests) ?_
      rintro _ p' ⟨rfl, same⟩
      exact ⟨nil, rests.unmoved same⟩

theorem collectsMore {rule : Rule α} {first : α → Prop} {tail good : List α → Prop} (advances : c.Advances c₁)
    (h : ∀ p, Rests x m d c p → Meets rule p (fun r p' => ∃ a, r = some a ∧ first a ∧ Rests x m d c₁ p') Never)
    (cons : ∀ a as, first a → tail as → good (a :: as)) (more : Collects x rule tail m d c₁ c') :
    Collects x rule good m d c c' := by
  intro bound enough p rests
  have shorter := advances.shorter
  cases bound with
  | nil =>
      simp only [List.length_nil] at enough
      omega
  | cons _ bound =>
      simp only [List.length_cons] at enough
      refine (h p rests).bind ?_
      rintro _ p₁ ⟨a, rfl, met, rests₁⟩
      refine (more bound (by omega) p₁ rests₁).bind ?_
      rintro as p₂ ⟨rest, rests₂⟩
      exact ⟨cons a as met rest, rests₂⟩

theorem collectsNode {rule : Rule Node} {ns : List Node} (advances : c.Advances c₁) (h : Yields x rule n m d c c₁)
    (more : Collects x rule (· = ns) m d c₁ c') : Collects x rule (· = n :: ns) m d c c' := by
  have first : ∀ p, Rests x m d c p →
      Meets rule p (fun r p' => ∃ a, r = some a ∧ a = n ∧ Rests x m d c₁ p') Never := by
    intro p rests
    refine (h p rests).result ?_
    rintro _ p' ⟨rfl, rests'⟩
    exact ⟨n, rfl, rfl, rests'⟩
  refine collectsMore advances first ?_ more
  rintro _ _ rfl rfl
  rfl

def Grows (x : Setting) (step : α → Rule α) (a z : α) (m : Mode) (d : Nat) (c c' : Cursor) : Prop :=
  ∀ bound : List Char, c.rest.length ≤ bound.length → Gives x (growWithin step bound a) z m d c c'

theorem Grows.grow {step : α → Rule α} {a z : α} (h : Grows x step a z m d c c') : Gives x (grow step a) z m d c c' :=
  fun p rests => h p.scanner.cursor.rest (Nat.le_of_eq (by rw [rests.scanner.cursor])) p rests

theorem growsStop {step : α → Rule α} {a : α} (h : Passes x (step a) m d c) : Grows x step a a m d c c := by
  intro bound _ p rests
  cases bound with
  | nil =>
      refine Meets.bind (h p rests) ?_
      rintro _ p' ⟨rfl, same⟩
      exact ⟨rfl, rests.unmoved same⟩
  | cons _ bound =>
      refine Meets.bind (h p rests) ?_
      rintro _ p' ⟨rfl, same⟩
      exact ⟨rfl, rests.unmoved same⟩

theorem growsMore {step : α → Rule α} {a b z : α} (advances : c.Advances c₁) (h : Yields x (step a) b m d c c₁)
    (more : Grows x step b z m d c₁ c') : Grows x step a z m d c c' := by
  intro bound enough p rests
  have shorter := advances.shorter
  cases bound with
  | nil =>
      simp only [List.length_nil] at enough
      omega
  | cons _ bound =>
      simp only [List.length_cons] at enough
      refine (h p rests).bind ?_
      rintro _ p₁ ⟨rfl, rests₁⟩
      exact more bound (by omega) p₁ rests₁

end Loops

section Names

theorem yieldsJsxIdentifier {s : String} (own : c.next? m = some (.jsxIdentifier s, c')) :
    Yields x jsxIdentifier ⟨.jsxIdentifier s, c.spanTo c' x.file⟩ m d c c' := by
  intro p h
  refine (meetsJsxIdentifier h.stands).result fun r p' outcome => ?_
  cases r with
  | none => exact absurd own (outcome.1 s c')
  | some n =>
      obtain ⟨s', c₂, next, rfl, rests⟩ := outcome
      obtain ⟨rfl, rfl⟩ : s = s' ∧ c' = c₂ := by rw [own] at next; simpa using next
      exact ⟨rfl, rests⟩

theorem growsMembers {object : Node} (h : ReadsMembers x.file object c n c')
    (ordered : object.span.start ≤ c.position) : Grows x memberStep object n .jsx d c c' := by
  induction h with
  | @stop object c stop =>
      refine growsStop fun p rests => ?_
      refine Meets.bind (stopsConsume rests.stands stop) ?_
      rintro _ p₁ ⟨rfl, same⟩
      exact ⟨rfl, same⟩
  | @step object c c₁ c₂ s n c' dot own _ ih =>
      have advances := (nextAdvances dot).then (nextReaches own)
      have later : object.span.start ≤ c₂.position := Position.leTrans ordered advances.reaches.position
      refine growsMore advances (fun p rests => ?_) (ih later)
      refine (takesConsume rests.stands dot (List.mem_singleton_self ".")).bind ?_
      rintro _ p₁ ⟨t, rfl, -, -, rests₁⟩
      refine (givesRequired (yieldsJsxIdentifier own) p₁ rests₁).bind ?_
      rintro _ p₂ ⟨rfl, rests₂⟩
      refine (restsCompleteAt rests₂ c₂.position rfl later).bind ?_
      rintro _ _ ⟨rfl, rfl⟩
      exact ⟨rfl, rests₂⟩

theorem yieldsName {chained : Bool} (h : ReadsName x.file chained n c c') :
    Yields x (name chained) n .jsx d c c' := by
  intro p rests
  cases h with
  | simple own stop =>
      refine (yieldsJsxIdentifier own p rests).bind ?_
      rintro _ p₁ ⟨rfl, rests₁⟩
      refine Meets.bind (stopsConsume rests₁.stands stop) ?_
      rintro _ p₂ ⟨rfl, same⟩
      exact ⟨rfl, rests₁.unmoved same⟩
  | @chain s _ c₁ _ _ own stop members =>
      refine (yieldsJsxIdentifier own p rests).bind ?_
      rintro _ p₁ ⟨rfl, rests₁⟩
      refine Meets.bind (stopsConsume rests₁.stands stop) ?_
      rintro _ p₂ ⟨rfl, same⟩
      have grown := (growsMembers (x := x) (d := d) members (skipReaches own).position).grow
      refine (grown p₂ (rests₁.unmoved same)).bind ?_
      rintro _ p₃ ⟨rfl, rests₃⟩
      exact ⟨rfl, rests₃⟩
  | namespaced space colon own =>
      refine (yieldsJsxIdentifier space p rests).bind ?_
      rintro _ p₁ ⟨rfl, rests₁⟩
      refine (takesConsume rests₁.stands colon (List.mem_singleton_self ":")).bind ?_
      rintro _ p₂ ⟨t, rfl, -, -, rests₂⟩
      refine (givesRequired (yieldsJsxIdentifier own) p₂ rests₂).bind ?_
      rintro _ p₃ ⟨rfl, rests₃⟩
      refine (restsComplete rests₃ rfl
        ((skipReaches space).trans ((nextReaches colon).trans (nextReaches own))).position).bind ?_
      rintro _ _ ⟨rfl, rfl⟩
      exact ⟨rfl, rests₃⟩

theorem passesName (chained : Bool) (nameless : ∀ s c', c.next? .jsx ≠ some (.jsxIdentifier s, c')) :
    Passes x (name chained) .jsx d c := by
  intro p rests
  refine (meetsJsxIdentifier rests.stands).bind fun r p' outcome => ?_
  cases r with
  | none => exact ⟨rfl, outcome.2⟩
  | some n =>
      obtain ⟨s, c₁, next, -, -⟩ := outcome
      exact absurd next (nameless s c₁)

end Names

section Markup

theorem yieldsStringLiteral {raw : String} (token : c.next? m = some (.stringLiteral raw, c')) :
    Yields x stringLiteral ⟨.literal (.string (Literal.unquote raw)) raw, c.spanTo c' x.file⟩ m d c c' := by
  intro p rests
  refine (meetsTokenWhere rests.stands isStringLiteral).bind fun t p₁ outcome => ?_
  cases t with
  | none => cases outcome.1 _ _ token
  | some t =>
      obtain ⟨c₁, next, -, span, rests₁⟩ := outcome
      obtain ⟨kind, rfl⟩ : Token.Kind.stringLiteral raw = t.kind ∧ c' = c₁ := by
        rw [token] at next; simpa using next
      obtain ⟨_, comments, place⟩ := t
      cases kind
      refine (meetsLiteral rests₁ rfl next span).result ?_
      rintro _ _ ⟨rfl, rfl⟩
      exact ⟨rfl, rests₁⟩

theorem passesStringLiteral {k : Token.Kind} (next : c.next? m = some (k, c₁)) (other : isStringLiteral k = false) :
    Passes x stringLiteral m d c := by
  intro p rests
  refine (meetsTokenWhere rests.stands isStringLiteral).bind fun t p₁ outcome => ?_
  cases t with
  | none => exact ⟨rfl, outcome.2⟩
  | some t =>
      obtain ⟨c₂, next', fits, -, -⟩ := outcome
      rw [next, Option.some.injEq, Prod.mk.injEq] at next'
      rw [← next'.1, other] at fits
      cases fits

theorem yieldsMarkupFragment (h : Yields x (inner .fragment) n m d c c') : Yields x (markup inner) n m d c c' := by
  intro p rests
  refine (h p rests).bind ?_
  rintro _ p₁ ⟨rfl, rests₁⟩
  exact ⟨rfl, rests₁⟩

theorem yieldsMarkupElement (no : Passes x (inner .fragment) m d c) (h : Yields x (inner .element) n m d c c') :
    Yields x (markup inner) n m d c c' := by
  intro p rests
  refine Meets.bind (no p rests) ?_
  rintro _ p₁ ⟨rfl, same⟩
  exact h p₁ (rests.unmoved same)

theorem passesMarkup (fragment : Passes x (inner .fragment) m d c) (element : Passes x (inner .element) m d c) :
    Passes x (markup inner) m d c := by
  intro p rests
  refine Meets.bind (fragment p rests) ?_
  rintro _ p₁ ⟨rfl, same⟩
  refine (element p₁ (rests.unmoved same)).result ?_
  rintro _ p₂ ⟨rfl, same'⟩
  exact ⟨rfl, same.trans same'⟩

theorem givesClosed {o : String} {c₂ : Cursor} (inside : Yields x (inner .expression) n m d c₁ c₂)
    (closes : c₂.Takes m o c') : Gives x (do
      let n ← requiredExpression inner
      let _ ← expect o
      return n) n m d c₁ c' := by
  intro p rests
  refine (givesRequired inside p rests).bind ?_
  rintro _ p₁ ⟨rfl, rests₁⟩
  refine (takesExpect rests₁.stands closes).bind ?_
  rintro _ p₂ ⟨-, rests₂⟩
  exact ⟨rfl, rests₂⟩

theorem givesStringValue {raw : String} (token : c.next? .jsx = some (.stringLiteral raw, c')) :
    Gives x (attributeValue inner) ⟨.literal (.string (Literal.unquote raw)) raw, c.spanTo c' x.file⟩
      .jsx d c c' := by
  intro p rests
  refine (yieldsStringLiteral token p rests).bind ?_
  rintro _ p₁ ⟨rfl, rests₁⟩
  exact ⟨rfl, rests₁⟩

theorem givesContainerValue {c₂ : Cursor} (opens : c.Takes .jsx "\x7b" c₁)
    (inside : Yields x (inner .expression) n .script d c₁ c₂) (reaches : c₁.Reaches c₂)
    (closes : c₂.Takes .script "\x7d" c') :
    Gives x (attributeValue inner) ⟨.container n, c.spanTo c' x.file⟩ .jsx d c c' := by
  intro p rests
  refine Meets.bind (passesStringLiteral opens rfl p rests) ?_
  rintro _ p₁ ⟨rfl, same⟩
  refine (takesConsume (rests.unmoved same).stands opens (List.mem_singleton_self "\x7b")).bind ?_
  rintro _ p₂ ⟨brace, rfl, -, span, rests₂⟩
  obtain ⟨kind, comments, place⟩ := brace
  simp only at span
  subst span
  refine (givesWithMode (givesClosed inside closes) p₂ rests₂).bind ?_
  rintro _ p₃ ⟨rfl, rests₃⟩
  refine (restsComplete rests₃ rfl ((skipReaches opens).trans (reaches.trans (nextReaches closes))).position).result ?_
  rintro _ _ ⟨rfl, rfl⟩
  exact ⟨rfl, rests₃⟩

theorem givesMarkupValue (less : c.Takes .jsx "<" c₁) (h : Yields x (markup inner) n .jsx d c c') :
    Gives x (attributeValue inner) n .jsx d c c' := by
  intro p rests
  refine Meets.bind (passesStringLiteral less rfl p rests) ?_
  rintro _ p₁ ⟨rfl, same⟩
  have rests₁ := rests.unmoved same
  refine Meets.bind (stopsConsume rests₁.stands (stopsOf less (by decide))) ?_
  rintro _ p₂ ⟨rfl, same'⟩
  exact givesRequired h p₂ (rests₁.unmoved same')

theorem yieldsSpreadAttribute {c₂ c₃ : Cursor} (opens : c.Takes .jsx "\x7b" c₁) (dots : c₁.Takes .script "..." c₂)
    (inside : Yields x (inner .expression) n .script d c₂ c₃) (reaches : c₂.Reaches c₃)
    (closes : c₃.Takes .script "\x7d" c') :
    Yields x (attribute? inner) ⟨.spreadAttribute n, c.spanTo c' x.file⟩ .jsx d c c' := by
  intro p rests
  have spread : Yields x (spreadAttribute inner) ⟨.spreadAttribute n, c.spanTo c' x.file⟩ .jsx d c c' := by
    intro p rests
    refine (takesConsume rests.stands opens (List.mem_singleton_self "\x7b")).bind ?_
    rintro _ p₁ ⟨brace, rfl, -, span, rests₁⟩
    obtain ⟨kind, comments, place⟩ := brace
    simp only at span
    subst span
    have body : Gives x (do
        let _ ← expect "..."
        let argument ← requiredExpression inner
        let _ ← expect "\x7d"
        return argument) n .script d c₁ c' := by
      intro p rests
      refine (takesExpect rests.stands dots).bind ?_
      rintro _ p₁ ⟨-, rests₁⟩
      exact givesClosed inside closes p₁ rests₁
    refine (givesWithMode body p₁ rests₁).bind ?_
    rintro _ p₂ ⟨rfl, rests₂⟩
    refine (restsComplete rests₂ rfl ((skipReaches opens).trans ((nextReaches dots).trans
      (reaches.trans (nextReaches closes)))).position).bind ?_
    rintro _ _ ⟨rfl, rfl⟩
    exact ⟨rfl, rests₂⟩
  refine (spread p rests).bind ?_
  rintro _ p₁ ⟨rfl, rests₁⟩
  exact ⟨rfl, rests₁⟩

theorem passesSpreadAttribute (stop : c.Stops ["\x7b"] .jsx) : Passes x (spreadAttribute inner) .jsx d c := by
  intro p rests
  refine Meets.bind (stopsConsume rests.stands stop) ?_
  rintro _ p₁ ⟨rfl, same⟩
  exact ⟨rfl, same⟩

theorem nameStops {chained : Bool} {file : Option String} (h : ReadsName file chained n c c') (ps : List String) :
    c.Stops ps .jsx := by
  cases h with
  | simple own | chain own | namespaced own => exact stopsOf own fun _ _ => Token.Kind.noConfusion

theorem yieldsPlainAttribute {own : Node} (name : ReadsName x.file false own c c') (stop : c'.Stops ["="] .jsx) :
    Yields x (attribute? inner) ⟨.jsxAttribute own none, own.spanUpTo c' x.file⟩ .jsx d c c' := by
  intro p rests
  refine Meets.bind (passesSpreadAttribute (nameStops name _) p rests) ?_
  rintro _ p₁ ⟨rfl, same⟩
  refine (yieldsName name p₁ (rests.unmoved same)).bind ?_
  rintro _ p₂ ⟨rfl, rests₂⟩
  refine meetsOpenNode (Meets.bind (stopsConsume rests₂.stands stop) ?_)
  rintro _ p₃ ⟨rfl, same'⟩
  have rests₃ := rests₂.unmoved same'
  refine (restsComplete rests₃ rfl (nameOrdered name)).bind ?_
  rintro _ _ ⟨rfl, rfl⟩
  exact ⟨rfl, rests₃⟩

theorem yieldsValuedAttribute {own value : Node} {c₂ : Cursor} (name : ReadsName x.file false own c c₁)
    (equals : c₁.Takes .jsx "=" c₂) (assigned : Gives x (attributeValue inner) value .jsx d c₂ c')
    (reaches : c₂.Reaches c') :
    Yields x (attribute? inner) ⟨.jsxAttribute own (some value), own.spanUpTo c' x.file⟩ .jsx d c c' := by
  intro p rests
  refine Meets.bind (passesSpreadAttribute (nameStops name _) p rests) ?_
  rintro _ p₁ ⟨rfl, same⟩
  refine (yieldsName name p₁ (rests.unmoved same)).bind ?_
  rintro _ p₂ ⟨rfl, rests₂⟩
  refine meetsOpenNode ((takesConsume rests₂.stands equals (List.mem_singleton_self "=")).bind ?_)
  rintro _ p₃ ⟨t, rfl, -, -, rests₃⟩
  refine (assigned p₃ rests₃).bind ?_
  rintro _ p₄ ⟨rfl, rests₄⟩
  have ordered := Position.leTrans (nameOrdered name) ((nextReaches equals).trans reaches).position
  refine (restsComplete rests₄ rfl ordered).bind ?_
  rintro _ _ ⟨rfl, rfl⟩
  exact ⟨rfl, rests₄⟩

theorem passesAttribute (ends : EndsAttributes c) : Passes x (attribute? inner) .jsx d c := by
  intro p rests
  refine Meets.bind (passesSpreadAttribute ends.1 p rests) ?_
  rintro _ p₁ ⟨rfl, same⟩
  have named : Passes x (namedAttribute inner) .jsx d c := by
    intro p rests
    refine Meets.bind (passesName false ends.2 p rests) ?_
    rintro _ p₁ ⟨rfl, same⟩
    exact ⟨rfl, same⟩
  refine (named p₁ (rests.unmoved same)).result ?_
  rintro _ p₂ ⟨rfl, same'⟩
  exact ⟨rfl, same.trans same'⟩

end Markup

section Children

theorem yieldsTextChild {raw : String} (run : c.text? = some (raw, c')) :
    Yields x textChild ⟨.jsxText raw raw, c.position, c'.position, x.file⟩ m d c c' := by
  intro p rests
  refine (meetsTextChild rests).result fun r p' outcome => ?_
  cases r with
  | none => rw [run] at outcome; cases outcome.1
  | some n =>
      obtain ⟨raw', c₁, text, rfl, rests'⟩ := outcome
      rw [run, Option.some.injEq, Prod.mk.injEq] at text
      obtain ⟨rfl, rfl⟩ := text
      exact ⟨rfl, rests'⟩

theorem passesTextChild (textless : c.text? = none) : Passes x textChild m d c := by
  intro p rests
  refine (meetsTextChild rests).result fun r p' outcome => ?_
  cases r with
  | none => exact ⟨rfl, outcome.2⟩
  | some n =>
      obtain ⟨raw, c₁, text, -, -⟩ := outcome
      rw [textless] at text
      cases text

theorem yieldsText {raw : String} (run : c.text? = some (raw, c')) :
    Yields x (child inner) ⟨.jsxText raw raw, c.position, c'.position, x.file⟩ .jsx d c c' := by
  intro p rests
  refine (yieldsTextChild run p rests).bind ?_
  rintro _ p₁ ⟨rfl, rests₁⟩
  exact ⟨rfl, rests₁⟩

theorem yieldsMarkupChild (textless : c.text? = none) (h : Yields x (markup inner) n .jsx d c c') :
    Yields x (child inner) n .jsx d c c' := by
  intro p rests
  refine Meets.bind (passesTextChild textless p rests) ?_
  rintro _ p₁ ⟨rfl, same⟩
  refine (h p₁ (rests.unmoved same)).bind ?_
  rintro _ p₂ ⟨rfl, rests₂⟩
  exact ⟨rfl, rests₂⟩

theorem yieldsBracedChild (textless : c.text? = none) (opens : c.Takes .jsx "\x7b" c₁)
    (no : Passes x (markup inner) .jsx d c)
    (h : ∀ brace : Token, brace.span = c.spanTo c₁ x.file → Gives x (bracedContents inner brace) n .script d c₁ c') :
    Yields x (child inner) n .jsx d c c' := by
  intro p rests
  refine Meets.bind (passesTextChild textless p rests) ?_
  rintro _ p₁ ⟨rfl, same₁⟩
  have rests₁ := rests.unmoved same₁
  refine Meets.bind (no p₁ rests₁) ?_
  rintro _ p₂ ⟨rfl, same₂⟩
  refine (takesConsume (rests₁.unmoved same₂).stands opens (List.mem_singleton_self "\x7b")).bind ?_
  rintro _ p₃ ⟨brace, rfl, -, span, rests₃⟩
  refine (givesWithMode (h brace span) p₃ rests₃).bind ?_
  rintro _ p₄ ⟨rfl, rests₄⟩
  exact ⟨rfl, rests₄⟩

theorem givesEmptyContainer {brace : Token} (opens : c.Takes .jsx "\x7b" c₁) (span : brace.span = c.spanTo c₁ x.file)
    (no : Passes x (inner .expression) .script d c₁) (closes : c₁.Takes .script "\x7d" c') :
    Gives x (bracedContents inner brace) ⟨.container ⟨.emptyExpression, c₁.position, c₁.position, x.file⟩,
      c.spanTo c' x.file⟩ .script d c₁ c' := by
  intro p rests
  obtain ⟨kind, comments, place⟩ := brace
  simp only at span
  subst span
  refine Meets.bind (stopsConsume rests.stands (stopsOf closes (by decide))) ?_
  rintro _ p₁ ⟨rfl, same₁⟩
  have rests₁ := rests.unmoved same₁
  refine Meets.bind (no p₁ rests₁) ?_
  rintro _ p₂ ⟨rfl, same₂⟩
  have rests₂ := rests₁.unmoved same₂
  have last : Meets lastEnd p₂ (fun after p' => after = c₁.position ∧ p' = p₂) Never :=
    ⟨rests₂.scanner.ended, rfl⟩
  refine last.bind ?_
  rintro _ _ ⟨rfl, rfl⟩
  refine (takesExpect rests₂.stands closes).bind ?_
  rintro _ p₃ ⟨-, rests₃⟩
  refine (restsCompleteAt rests₃ _ rfl (Position.leRefl _)).bind ?_
  rintro _ _ ⟨rfl, rfl⟩
  refine (restsComplete rests₃ rfl ((skipReaches opens).trans (nextReaches closes)).position).result ?_
  rintro _ _ ⟨rfl, rfl⟩
  exact ⟨rfl, rests₃⟩

theorem givesContainer {brace : Token} {c₂ : Cursor} (opens : c.Takes .jsx "\x7b" c₁)
    (span : brace.span = c.spanTo c₁ x.file) (first : c₁.Stops ["..."] .script)
    (inside : Yields x (inner .expression) n .script d c₁ c₂) (reaches : c₁.Reaches c₂)
    (closes : c₂.Takes .script "\x7d" c') :
    Gives x (bracedContents inner brace) ⟨.container n, c.spanTo c' x.file⟩ .script d c₁ c' := by
  intro p rests
  obtain ⟨kind, comments, place⟩ := brace
  simp only at span
  subst span
  refine Meets.bind (stopsConsume rests.stands first) ?_
  rintro _ p₁ ⟨rfl, same₁⟩
  refine (inside p₁ (rests.unmoved same₁)).bind ?_
  rintro _ p₂ ⟨rfl, rests₂⟩
  refine (takesExpect rests₂.stands closes).bind ?_
  rintro _ p₃ ⟨-, rests₃⟩
  have ordered := ((skipReaches opens).trans (reaches.trans (nextReaches closes))).position
  refine (restsComplete rests₃ rfl ordered).result ?_
  rintro _ _ ⟨rfl, rfl⟩
  exact ⟨rfl, rests₃⟩

theorem givesSpreadChild {brace : Token} {c₂ c₃ : Cursor} (opens : c.Takes .jsx "\x7b" c₁)
    (span : brace.span = c.spanTo c₁ x.file) (dots : c₁.Takes .script "..." c₂)
    (inside : Yields x (inner .expression) n .script d c₂ c₃) (reaches : c₂.Reaches c₃)
    (closes : c₃.Takes .script "\x7d" c') :
    Gives x (bracedContents inner brace) ⟨.spreadChild n, c.spanTo c' x.file⟩ .script d c₁ c' := by
  intro p rests
  obtain ⟨kind, comments, place⟩ := brace
  simp only at span
  subst span
  refine (takesConsume rests.stands dots (List.mem_singleton_self "...")).bind ?_
  rintro _ p₁ ⟨t, rfl, -, -, rests₁⟩
  refine (inside p₁ rests₁).bind ?_
  rintro _ p₂ ⟨rfl, rests₂⟩
  refine (takesExpect rests₂.stands closes).bind ?_
  rintro _ p₃ ⟨-, rests₃⟩
  have ordered := ((skipReaches opens).trans ((nextReaches dots).trans (reaches.trans (nextReaches closes)))).position
  refine (restsComplete rests₃ rfl ordered).result ?_
  rintro _ _ ⟨rfl, rfl⟩
  exact ⟨rfl, rests₃⟩

theorem passesChild (textless : c.text? = none) (no : Passes x (markup inner) .jsx d c)
    (stop : c.Stops ["\x7b"] .jsx) : Passes x (child inner) .jsx d c := by
  intro p rests
  refine Meets.bind (passesTextChild textless p rests) ?_
  rintro _ p₁ ⟨rfl, same₁⟩
  have rests₁ := rests.unmoved same₁
  refine Meets.bind (no p₁ rests₁) ?_
  rintro _ p₂ ⟨rfl, same₂⟩
  refine Meets.bind (stopsConsume (rests₁.unmoved same₂).stands stop) ?_
  rintro _ p₃ ⟨rfl, same₃⟩
  exact ⟨rfl, (same₁.trans same₂).trans same₃⟩

end Children

section Tags

theorem takesCurrentIs (takes : c.Takes m o c₁) (rests : Rests x m d c p) :
    Meets (currentIs o) p (fun yes p' => yes = true ∧ Unmoved p p') bad := by
  refine (meetsCurrentIs rests.stands o).result fun yes p' ⟨same, begins⟩ => ?_
  exact ⟨begins.mpr ⟨c₁, takes⟩, same⟩

theorem peekIsOf {o' : String} {k : Token.Kind} (takes : c.Takes m o c₁) (next : c₁.next? m = some (k, c'))
    (rests : Rests x m d c p) : Meets (peekIs o') p (fun yes p' => yes = (k == .punctuator o') ∧ Unmoved p p') bad := by
  refine (meetsPeekIs rests.stands o').result fun yes p' ⟨same, follows⟩ => ⟨?_, same⟩
  rw [Bool.eq_iff_iff, follows, beq_iff_eq]
  constructor
  · rintro ⟨k', b, b', takes', next'⟩
    obtain ⟨-, rfl⟩ : Token.Kind.punctuator o = k' ∧ c₁ = b := by rw [takes] at takes'; simpa using takes'
    rw [next] at next'
    simpa using congrArg (·.map Prod.fst) next'
  · rintro rfl
    exact ⟨_, c₁, c', takes, next⟩

theorem Collects.children {ns : List Node} (h : Collects x (child inner) (· = ns) m d c c') :
    Gives x (children inner) (presentList ns) m d c c' := by
  intro p rests
  refine Meets.bind (h.many rests) ?_
  rintro _ p₁ ⟨rfl, rests₁⟩
  exact ⟨rfl, rests₁⟩

theorem Collects.attributes {ns : List Node} (h : Collects x (attribute? inner) (· = ns) m d c c') :
    Gives x (attributes inner) (presentList ns) m d c c' := by
  intro p rests
  refine Meets.bind (h.many rests) ?_
  rintro _ p₁ ⟨rfl, rests₁⟩
  exact ⟨rfl, rests₁⟩

theorem yieldsFragment {ns : List Node} {b b' c₂ c₃ c₄ c₅ : Cursor} (less : c.Takes m "<" b) (greater : b.Takes m ">" b')
    (room : d < x.config.maxDepth) (opens : c.Takes .jsx "<" c₁) (opened : c₁.Takes .jsx ">" c₂)
    (inside : Collects x (child inner) (· = ns) .jsx (d + 1) c₂ c₃) (reaches : c₂.Reaches c₃)
    (closes : c₃.Takes .jsx "<" c₄) (slash : c₄.Takes .jsx "/" c₅) (closed : c₅.Takes .jsx ">" c') :
    Yields x (fragment inner) ⟨.fragment ⟨.openingFragment, c.spanTo c₂ x.file⟩
      ⟨.closingFragment, c₃.spanTo c' x.file⟩ (presentList ns), c.spanTo c' x.file⟩ m d c c' := by
  have body : Gives x (fragmentBody inner) ⟨.fragment ⟨.openingFragment, c.spanTo c₂ x.file⟩
      ⟨.closingFragment, c₃.spanTo c' x.file⟩ (presentList ns), c.spanTo c' x.file⟩ .jsx (d + 1) c c' := by
    intro p rests
    refine (takesExpect rests.stands opens).bind ?_
    rintro token p₁ ⟨lessSpan, rests₁⟩
    refine (takesExpect rests₁.stands opened).bind ?_
    rintro token' p₂ ⟨greaterSpan, rests₂⟩
    refine (inside.children p₂ rests₂).bind ?_
    rintro _ p₃ ⟨rfl, rests₃⟩
    refine (takesExpect rests₃.stands closes).bind ?_
    rintro token'' p₄ ⟨closingSpan, rests₄⟩
    refine (takesExpect rests₄.stands slash).bind ?_
    rintro _ p₅ ⟨-, rests₅⟩
    refine (takesExpect rests₅.stands closed).bind ?_
    rintro _ p₆ ⟨-, rests₆⟩
    obtain ⟨kind, comments, place⟩ := token
    obtain ⟨kind', comments', place'⟩ := token'
    obtain ⟨kind'', comments'', place''⟩ := token''
    simp only at lessSpan greaterSpan closingSpan
    subst lessSpan greaterSpan closingSpan
    have opening := (skipReaches opens).trans (nextReaches opened)
    have ending := (skipReaches closes).trans ((nextReaches slash).trans (nextReaches closed))
    have whole := opening.trans (reaches.trans (c₃.reachesSkip.trans ending))
    refine (restsCompleteAt rests₆ c₂.position rfl opening.position).bind ?_
    rintro _ _ ⟨rfl, rfl⟩
    refine (restsComplete rests₆ rfl ending.position).bind ?_
    rintro _ _ ⟨rfl, rfl⟩
    refine (restsComplete rests₆ rfl whole.position).result ?_
    rintro _ _ ⟨rfl, rfl⟩
    exact ⟨rfl, rests₆⟩
  intro p rests
  refine (takesCurrentIs less rests).bind ?_
  rintro _ p₁ ⟨rfl, same₁⟩
  have rests₁ := rests.unmoved same₁
  refine (peekIsOf less greater rests₁).bind ?_
  rintro _ p₂ ⟨rfl, same₂⟩
  refine (givesDeeper room (givesWithMode body) p₂ (rests₁.unmoved same₂)).bind ?_
  rintro _ p₃ ⟨rfl, rests₃⟩
  exact ⟨rfl, rests₃⟩

theorem passesFragment {k : Token.Kind} {b : Cursor} (less : c.Takes m "<" c₁) (next : c₁.next? m = some (k, b))
    (other : k ≠ .punctuator ">") : Passes x (fragment inner) m d c := by
  intro p rests
  refine (takesCurrentIs less rests).bind ?_
  rintro _ p₁ ⟨rfl, same₁⟩
  refine (peekIsOf less next (rests.unmoved same₁)).bind ?_
  rintro _ p₂ ⟨rfl, same₂⟩
  rw [beq_eq_false_iff_ne.mpr other]
  exact ⟨rfl, same₁.trans same₂⟩

theorem passesElement {b : Cursor} (less : c.Takes m "<" c₁) (slash : c₁.Takes m "/" b) :
    Passes x (element inner) m d c := by
  intro p rests
  refine (takesCurrentIs less rests).bind ?_
  rintro _ p₁ ⟨rfl, same₁⟩
  refine (peekIsOf less slash (rests.unmoved same₁)).bind ?_
  rintro _ p₂ ⟨rfl, same₂⟩
  exact ⟨rfl, same₁.trans same₂⟩

theorem yieldsElement {k : Token.Kind} {b : Cursor} (less : c.Takes m "<" c₁) (next : c₁.next? m = some (k, b))
    (other : k ≠ .punctuator "/") (room : d < x.config.maxDepth)
    (body : Gives x (elementBody inner) n .jsx (d + 1) c c') : Yields x (element inner) n m d c c' := by
  intro p rests
  refine (takesCurrentIs less rests).bind ?_
  rintro _ p₁ ⟨rfl, same₁⟩
  have rests₁ := rests.unmoved same₁
  refine (peekIsOf less next rests₁).bind ?_
  rintro _ p₂ ⟨rfl, same₂⟩
  rw [beq_eq_false_iff_ne.mpr other]
  refine (givesDeeper room (givesWithMode body) p₂ (rests₁.unmoved same₂)).bind ?_
  rintro _ p₃ ⟨rfl, rests₃⟩
  exact ⟨rfl, rests₃⟩

theorem givesSelfClosing {own : Node} {as : List Node} {c₂ c₃ c₄ : Cursor} (opens : c.Takes .jsx "<" c₁)
    (name : ReadsName x.file true own c₁ c₂) (listed : Collects x (attribute? inner) (· = as) .jsx d c₂ c₃)
    (reaches : c₂.Reaches c₃) (slash : c₃.Takes .jsx "/" c₄) (closed : c₄.Takes .jsx ">" c') :
    Gives x (elementBody inner) ⟨.element ⟨.openingElement own (presentList as) true, c.spanTo c' x.file⟩
      none none, c.spanTo c' x.file⟩ .jsx d c c' := by
  intro p rests
  refine (takesExpect rests.stands opens).bind ?_
  rintro token p₁ ⟨span, rests₁⟩
  refine (givesRequired (yieldsName name) p₁ rests₁).bind ?_
  rintro own p₂ ⟨rfl, rests₂⟩
  refine (listed.attributes p₂ rests₂).bind ?_
  rintro _ p₃ ⟨rfl, rests₃⟩
  refine (takesConsume rests₃.stands slash (List.mem_singleton_self "/")).bind ?_
  rintro _ p₄ ⟨t, rfl, -, -, rests₄⟩
  refine (takesExpect rests₄.stands closed).bind ?_
  rintro token' p₅ ⟨span', rests₅⟩
  obtain ⟨kind, comments, place⟩ := token
  obtain ⟨kind', comments', place'⟩ := token'
  simp only at span span'
  subst span span'
  have ordered := ((skipReaches opens).trans (name.advances.reaches.trans (reaches.trans
    ((nextReaches slash).trans (nextReaches closed))))).position
  have skipped : Meets (elementTail inner own true) p₅ (fun r p' => r = (none, none) ∧ p' = p₅) Never := ⟨rfl, rfl⟩
  refine skipped.bind ?_
  rintro _ _ ⟨rfl, rfl⟩
  refine (restsCompleteAt rests₅ c'.position rfl ordered).bind ?_
  rintro _ _ ⟨rfl, rfl⟩
  refine (restsComplete rests₅ rfl ordered).result ?_
  rintro _ _ ⟨rfl, rfl⟩
  exact ⟨rfl, rests₅⟩

theorem givesClosingTag {own closing : Node} {c₂ c₃ : Cursor} (closes : c.Takes .jsx "<" c₁)
    (slash : c₁.Takes .jsx "/" c₂) (name : ReadsName x.file true closing c₂ c₃) (closed : c₃.Takes .jsx ">" c')
    (same : own.sameName closing = true) :
    Gives x (closingTag own) ⟨.closingElement closing, c.spanTo c' x.file⟩ .jsx d c c' := by
  intro p rests
  refine (takesExpect rests.stands closes).bind ?_
  rintro token p₁ ⟨span, rests₁⟩
  refine (takesExpect rests₁.stands slash).bind ?_
  rintro _ p₂ ⟨-, rests₂⟩
  refine (givesRequired (yieldsName name) p₂ rests₂).bind ?_
  rintro _ p₃ ⟨rfl, rests₃⟩
  refine (takesExpect rests₃.stands closed).bind ?_
  rintro _ p₄ ⟨-, rests₄⟩
  obtain ⟨kind, comments, place⟩ := token
  simp only at span
  subst span
  rw [if_pos same]
  refine (restsComplete rests₄ rfl ((skipReaches closes).trans ((nextReaches slash).trans
    (name.advances.reaches.trans (nextReaches closed)))).position).result ?_
  rintro _ _ ⟨rfl, rfl⟩
  exact ⟨rfl, rests₄⟩

theorem givesElement {own closing : Node} {as ns : List Node} {c₂ c₃ c₄ c₅ : Cursor} (opens : c.Takes .jsx "<" c₁)
    (name : ReadsName x.file true own c₁ c₂) (listed : Collects x (attribute? inner) (· = as) .jsx d c₂ c₃)
    (reaches : c₂.Reaches c₃) (opened : c₃.Takes .jsx ">" c₄)
    (inside : Collects x (child inner) (· = ns) .jsx d c₄ c₅) (reaches' : c₄.Reaches c₅)
    (tag : Gives x (closingTag own) ⟨.closingElement closing, c₅.spanTo c' x.file⟩ .jsx d c₅ c') (ends : c₅.Reaches c') :
    Gives x (elementBody inner) ⟨.element ⟨.openingElement own (presentList as) false, c.spanTo c₄ x.file⟩
      (some ⟨.closingElement closing, c₅.spanTo c' x.file⟩) (presentList ns), c.spanTo c' x.file⟩ .jsx d c c' := by
  intro p rests
  refine (takesExpect rests.stands opens).bind ?_
  rintro token p₁ ⟨span, rests₁⟩
  refine (givesRequired (yieldsName name) p₁ rests₁).bind ?_
  rintro own p₂ ⟨rfl, rests₂⟩
  refine (listed.attributes p₂ rests₂).bind ?_
  rintro _ p₃ ⟨rfl, rests₃⟩
  refine Meets.bind (stopsConsume rests₃.stands (stopsOf opened (by decide))) ?_
  rintro _ p₄ ⟨rfl, same⟩
  refine (takesExpect (rests₃.unmoved same).stands opened).bind ?_
  rintro token' p₅ ⟨span', rests₅⟩
  obtain ⟨kind, comments, place⟩ := token
  obtain ⟨kind', comments', place'⟩ := token'
  simp only at span span'
  subst span span'
  have opening := (skipReaches opens).trans (name.advances.reaches.trans (reaches.trans (nextReaches opened)))
  have tail : Gives x (elementTail inner own false)
      (presentList ns, some ⟨.closingElement closing, c₅.spanTo c' x.file⟩) .jsx d c₄ c' := by
    intro p rests
    refine (inside.children p rests).bind ?_
    rintro _ p₁ ⟨rfl, rests₁⟩
    refine (tag p₁ rests₁).bind ?_
    rintro _ p₂ ⟨rfl, rests₂⟩
    exact ⟨rfl, rests₂⟩
  refine (tail p₅ rests₅).bind ?_
  rintro _ p₆ ⟨rfl, rests₆⟩
  refine (restsCompleteAt rests₆ c₄.position rfl opening.position).bind ?_
  rintro _ _ ⟨rfl, rfl⟩
  refine (restsComplete rests₆ rfl (opening.trans (reaches'.trans ends)).position).result ?_
  rintro _ _ ⟨rfl, rfl⟩
  exact ⟨rfl, rests₆⟩

end Tags

end JsxTree.Grammar
