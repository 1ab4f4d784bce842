import JsxTree.Proofs.Completeness

/-! Failures. Where something is read inside of a rule and fails, the rule fails too, and with the same error: nothing
is tried instead, and modes and depths that are left on the way do not change the error. -/
namespace JsxTree.Grammar

open Cursor JsxTree.Parser

variable {α β : Type} {x : Setting} {m : Mode} {d b : Nat} {c c₁ c₂ c' : Cursor} {p : Parser} {o : String}
  {n object : Node} {inner : Inner} {bad : ParseError → Prop}

def Fails (x : Setting) (step : Parse α) (bad : ParseError → Prop) (m : Mode) (d : Nat) (c : Cursor) : Prop :=
  ∀ p, Rests x m d c p → Meets step p (fun _ _ => False) fun e _ => bad e

section Steps

variable {step : Parse α} {rule : Rule α} {next : α → Parse β} {follow : Option α → Parse β} {ps : List String} {a : α}

theorem Fails.bind (h : Fails x step bad m d c) : Fails x (step >>= next) bad m d c :=
  fun p rests => (h p rests).bind fun _ _ => False.elim

theorem Gives.fails (first : Gives x step a m d c c₁) (h : Fails x (next a) bad m d c₁) :
    Fails x (step >>= next) bad m d c := by
  intro p rests
  refine Meets.bind ((first p rests).weaken (fun _ _ => id) fun _ _ => False.elim) ?_
  rintro _ p₁ ⟨rfl, rests₁⟩
  exact h p₁ rests₁

theorem Passes.fails (first : Passes x rule m d c) (h : Fails x (follow none) bad m d c) :
    Fails x (rule >>= follow) bad m d c := by
  intro p rests
  refine Meets.bind (Meets.weaken (first p rests) (fun _ _ => id) fun _ _ => False.elim) ?_
  rintro _ p₁ ⟨rfl, same⟩
  exact h p₁ (rests.unmoved same)

theorem consumeFails {follow : Option Token → Parse β} (takes : c.Takes m o c₁) (known : o ∈ ps)
    (h : ∀ t, Fails x (follow (some t)) bad m d c₁) : Fails x (consume ps >>= follow) bad m d c := by
  intro p rests
  refine (takesConsume rests.stands takes known).bind ?_
  rintro _ p₁ ⟨t, rfl, -, -, rests₁⟩
  exact h t p₁ rests₁

theorem stopsFails {follow : Option Token → Parse β} (stop : c.Stops ps m) (h : Fails x (follow none) bad m d c) :
    Fails x (consume ps >>= follow) bad m d c := by
  intro p rests
  refine Meets.bind (stopsConsume rests.stands stop) ?_
  rintro _ p₁ ⟨rfl, same⟩
  exact h p₁ (rests.unmoved same)

theorem expectFails {follow : Token → Parse β} (takes : c.Takes m o c₁) (h : ∀ t, Fails x (follow t) bad m d c₁) :
    Fails x (expect o >>= follow) bad m d c := by
  intro p rests
  refine (takesExpect rests.stands takes).bind ?_
  rintro t p₁ ⟨-, rests₁⟩
  exact h t p₁ rests₁

theorem requiredFails (h : Fails x rule bad m d c) : Fails x (required rule) bad m d c := h.bind

theorem deeperFails (room : d < x.config.maxDepth) (h : Fails x step bad m (d + 1) c) :
    Fails x (deeper step) bad m d c := by
  intro p rests
  have entered : Meets enter p (fun _ p' => p' = { p with depth := p.depth + 1 }) fun e _ => bad e := by
    unfold enter
    have read : Meets get p (fun r p' => r = p ∧ p' = p) fun e _ => bad e := ⟨rfl, rfl⟩
    refine read.bind ?_
    rintro _ _ ⟨rfl, rfl⟩
    rw [if_neg (by rw [rests.config, rests.depth]; exact Nat.not_le_of_lt room)]
    rfl
  refine entered.bind ?_
  rintro _ _ rfl
  have run := h _ rests.enter
  unfold Meets at *
  cases ran : step { p with depth := p.depth + 1 } with
  | ok r p' =>
      rw [ran] at run
      exact run.elim
  | error e p' =>
      rw [ran] at run
      dsimp only
      rw [ran]
      cases e <;> exact run

theorem withModeFails {m' : Mode} (h : Fails x step bad m' d c) : Fails x (withMode m' step) bad m d c := by
  intro p rests
  have run := h _ (rests.setMode m')
  unfold Meets withMode at *
  cases ran : step (p.setMode m') with
  | ok r p' =>
      rw [ran] at run
      exact run.elim
  | error e p' =>
      rw [ran] at run
      cases e <;> exact run

end Steps

section Loops

variable {rule : Rule α}

def ManyFails (x : Setting) (rule : Rule α) (bad : ParseError → Prop) (m : Mode) (d : Nat) (c : Cursor) : Prop :=
  ∀ bound : List Char, c.rest.length ≤ bound.length → Fails x (manyWithin rule bound) bad m d c

theorem ManyFails.many (h : ManyFails x rule bad m d c) : Fails x (many rule) bad m d c :=
  fun p rests => h p.scanner.cursor.rest (Nat.le_of_eq (by rw [rests.scanner.cursor])) p rests

theorem manyFails (h : Fails x rule bad m d c) : ManyFails x rule bad m d c := by
  intro bound _
  cases bound with
  | nil | cons => exact h.bind

theorem manyFailsLater (advances : c.Advances c₁)
    (first : ∀ p, Rests x m d c p → Meets rule p (fun r p' => ∃ a, r = some a ∧ Rests x m d c₁ p') Never)
    (more : ManyFails x rule bad m d c₁) : ManyFails x rule bad m d c := by
  intro bound enough p rests
  have shorter := advances.shorter
  cases bound with
  | nil =>
      simp only [List.length_nil] at enough
      omega
  | cons _ bound =>
      simp only [List.length_cons] at enough
      refine Meets.bind ((first p rests).weaken (fun _ _ => id) fun _ _ => False.elim) ?_
      rintro _ p₁ ⟨a, rfl, rests₁⟩
      exact (more bound (by omega)).bind p₁ rests₁

theorem manyFailsAfter {rule : Rule Node} (advances : c.Advances c₁) (first : Yields x rule n m d c c₁)
    (more : ManyFails x rule bad m d c₁) : ManyFails x rule bad m d c := by
  refine manyFailsLater advances (fun p rests => (first p rests).result ?_) more
  rintro _ p₁ ⟨rfl, rests₁⟩
  exact ⟨n, rfl, rests₁⟩

def GrowFails (x : Setting) (step : α → Rule α) (a : α) (bad : ParseError → Prop) (m : Mode) (d : Nat) (c : Cursor) :
    Prop := ∀ bound : List Char, c.rest.length ≤ bound.length → Fails x (growWithin step bound a) bad m d c

variable {step : α → Rule α} {a z : α}

theorem GrowFails.grow (h : GrowFails x step a bad m d c) : Fails x (grow step a) bad m d c :=
  fun p rests => h p.scanner.cursor.rest (Nat.le_of_eq (by rw [rests.scanner.cursor])) p rests

theorem growFails (h : Fails x (step a) bad m d c) : GrowFails x step a bad m d c := by
  intro bound _
  cases bound with
  | nil | cons => exact h.bind

theorem growFailsAfter (advances : c.Advances c₁) (first : Yields x (step a) z m d c c₁)
    (more : GrowFails x step z bad m d c₁) : GrowFails x step a bad m d c := by
  intro bound enough
  have shorter := advances.shorter
  cases bound with
  | nil =>
      simp only [List.length_nil] at enough
      omega
  | cons _ bound =>
      simp only [List.length_cons] at enough
      exact first.fails (more bound (by omega))

theorem listFails {ps : List String} (h : Fails x rule bad m d c) : Fails x (separatedList rule ps) bad m d c := h.bind

theorem listFailsAfter {ps : List String} (first : Yields x rule a m d c c₁)
    (more : ManyFails x (separatedItem rule ps) bad m d c₁) : Fails x (separatedList rule ps) bad m d c :=
  first.fails more.many.bind

theorem itemFails {ps : List String} (operator : c.Takes m o c₁) (known : o ∈ ps) (h : Fails x rule bad m d c₁) :
    Fails x (separatedItem rule ps) bad m d c := consumeFails operator known fun _ => (requiredFails h).bind

end Loops

section Expressions

theorem closedFails (h : Fails x (inner .expression) bad m d c) : Fails x (do
    let n ← requiredExpression inner
    let _ ← expect o
    return n) bad m d c := (requiredFails h).bind

theorem parenthesizedFails (opens : c.Takes m "(" c₁) (room : d < x.config.maxDepth)
    (h : Fails x (inner .expression) bad m (d + 1) c₁) : Fails x (primary inner) bad m d c := by
  intro p rests
  refine (currentKind opens rests).bind ?_
  rintro _ p₁ ⟨⟨t, rfl, kind⟩, same⟩
  dsimp only
  rw [if_neg (by rw [kind]; decide), if_neg (by rw [kind]; decide), if_pos (Token.isPunctuatorIff.mpr kind)]
  have body : Fails x (parenthesized inner) bad m (d + 1) c := expectFails opens fun _ => closedFails h
  exact (deeperFails room body).bind p₁ (rests.unmoved same)

theorem fragmentPrimaryFails (less : c.Takes m "<" c₁) (allowed : x.config.jsx = true)
    (h : Fails x (fragment inner) bad m d c) : Fails x (primary inner) bad m d c :=
  fun _ rests => primaryMarkup less allowed rests h.bind

theorem elementPrimaryFails (less : c.Takes m "<" c₁) (allowed : x.config.jsx = true)
    (no : Passes x (fragment inner) m d c) (h : Fails x (element inner) bad m d c) :
    Fails x (primary inner) bad m d c :=
  fun _ rests => primaryMarkup less allowed rests (no.fails h)

theorem computedFails (opens : c.Takes m "[" c₁) (room : d < x.config.maxDepth)
    (h : Fails x (inner .expression) bad m (d + 1) c₁) : Fails x (suffix inner object) bad m d c := by
  refine stopsFails (stopsOf opens (by decide)) (consumeFails opens (List.mem_singleton_self "[") fun _ => ?_)
  have body : Fails x (computedProperty inner) bad m (d + 1) c₁ := closedFails h
  exact (deeperFails room body).bind

theorem callFails (opens : c.Takes m "(" c₁) (room : d < x.config.maxDepth)
    (h : Fails x (separatedList (inner .expression) [","]) bad m (d + 1) c₁) :
    Fails x (suffix inner object) bad m d c := by
  refine stopsFails (stopsOf opens (by decide)) (stopsFails (stopsOf opens (by decide)) ?_)
  refine consumeFails opens (List.mem_singleton_self "(") fun _ => ?_
  have body : Fails x (Grammar.arguments inner) bad m (d + 1) c₁ := h.bind
  have called : Fails x (call inner object) bad m d c₁ := (deeperFails room body).bind
  exact called.bind

theorem chainFails (h : Fails x (primary inner) bad m d c) : Fails x (callOrMember inner) bad m d c := h.bind

theorem chainFailsAfter (first : Yields x (primary inner) object m d c c₁)
    (more : GrowFails x (suffix inner) object bad m d c₁) : Fails x (callOrMember inner) bad m d c :=
  first.fails more.grow.bind

theorem plainUnaryFails (stop : c.Stops prefixOperators m) (h : Fails x (callOrMember inner) bad m d c) :
    Fails x (unary inner) bad m d c := stopsFails stop h

theorem unaryFails (operator : c.Takes m o c₁) (known : o ∈ prefixOperators) (room : d < x.config.maxDepth)
    (h : Fails x (inner .unary) bad m (d + 1) c₁) : Fails x (unary inner) bad m d c :=
  consumeFails operator known fun _ => (deeperFails room h).bind

variable {operand : Rule Node} {level : Level}

theorem foldFails (h : Fails x operand bad m d c) :
    Fails x (leftFold operand level.operators level.join) bad m d c := by
  have ended : Fails x (operandWithEnd operand) bad m d c := h.bind
  exact (listFails ended).bind

theorem foldFailsAfter (first : Yields x operand n m d c c₁)
    (more : ManyFails x (separatedItem (operandWithEnd operand) level.operators) bad m d c₁) :
    Fails x (leftFold operand level.operators level.join) bad m d c :=
  (listFailsAfter (yieldsOperandWithEnd first) more).bind

theorem operandFails (operator : c.Takes m o c₁) (known : o ∈ level.operators) (h : Fails x operand bad m d c₁) :
    Fails x (separatedItem (operandWithEnd operand) level.operators) bad m d c := by
  have ended : Fails x (operandWithEnd operand) bad m d c₁ := h.bind
  exact itemFails operator known ended

theorem operandsFailAfter (operator : c.Takes m o c₁) (known : o ∈ level.operators) (advances : c.Advances c₂)
    (first : Yields x operand n m d c₁ c₂)
    (more : ManyFails x (separatedItem (operandWithEnd operand) level.operators) bad m d c₂) :
    ManyFails x (separatedItem (operandWithEnd operand) level.operators) bad m d c := by
  refine manyFailsLater advances (fun p rests => ?_) more
  refine (itemOf operator known (yieldsOperandWithEnd first) rests).result ?_
  rintro _ p₁ ⟨s, rfl, -, rests₁⟩
  exact ⟨s, rfl, rests₁⟩

theorem argumentsFailAfter (comma : c.Takes m "," c₁) (advances : c.Advances c₂)
    (first : Yields x (inner .expression) n m d c₁ c₂)
    (more : ManyFails x (separatedItem (inner .expression) [","]) bad m d c₂) :
    ManyFails x (separatedItem (inner .expression) [","]) bad m d c := by
  refine manyFailsLater advances (fun p rests => ?_) more
  refine (itemOf comma (List.mem_singleton_self ",") first rests).result ?_
  rintro _ p₁ ⟨s, rfl, -, rests₁⟩
  exact ⟨s, rfl, rests₁⟩

end Expressions

section Markup

theorem markupFails (h : Fails x (inner .fragment) bad m d c) : Fails x (markup inner) bad m d c := h.bind

theorem containerValueFails (opens : c.Takes .jsx "\x7b" c₁) (h : Fails x (inner .expression) bad .script d c₁) :
    Fails x (attributeValue inner) bad .jsx d c := by
  have body : ∀ brace, Fails x (valueContainer inner brace) bad .jsx d c₁ :=
    fun _ => (withModeFails (closedFails h)).bind
  exact (passesStringLiteral opens rfl).fails (consumeFails opens (List.mem_singleton_self "\x7b") body)

theorem markupValueFails (less : c.Takes .jsx "<" c₁) (h : Fails x (markup inner) bad .jsx d c) :
    Fails x (attributeValue inner) bad .jsx d c :=
  (passesStringLiteral less rfl).fails (stopsFails (stopsOf less (by decide)) (requiredFails h))

theorem spreadAttributeFails (opens : c.Takes .jsx "\x7b" c₁) (dots : c₁.Takes .script "..." c₂)
    (h : Fails x (inner .expression) bad .script d c₂) : Fails x (attribute? inner) bad .jsx d c := by
  have spread : Fails x (spreadAttribute inner) bad .jsx d c := by
    refine consumeFails opens (List.mem_singleton_self "\x7b") fun _ => ?_
    exact (withModeFails (expectFails dots fun _ => closedFails h)).bind
  exact spread.bind

theorem valuedAttributeFails {own : Node} (name : ReadsName x.file false own c c₁) (equals : c₁.Takes .jsx "=" c₂)
    (h : Fails x (attributeValue inner) bad .jsx d c₂) : Fails x (attribute? inner) bad .jsx d c := by
  refine (passesSpreadAttribute (nameStops name _)).fails ((yieldsName name).fails fun p rests => ?_)
  exact meetsOpenNode (consumeFails equals (List.mem_singleton_self "=") (fun _ => h.bind) p rests)

theorem markupChildFails (textless : c.text? = none) (h : Fails x (markup inner) bad .jsx d c) :
    Fails x (child inner) bad .jsx d c := (passesTextChild textless).fails h.bind

theorem bracedChildFails (textless : c.text? = none) (opens : c.Takes .jsx "\x7b" c₁)
    (no : Passes x (markup inner) .jsx d c) (h : ∀ brace, Fails x (bracedContents inner brace) bad .script d c₁) : Fails x (child inner) bad .jsx d c := by
  refine (passesTextChild textless).fails (no.fails ?_)
  exact consumeFails opens (List.mem_singleton_self "\x7b") fun brace => (withModeFails (h brace)).bind

theorem containerFails (brace : Token) (first : c.Stops ["..."] .script)
    (h : Fails x (inner .expression) bad .script d c) : Fails x (bracedContents inner brace) bad .script d c := stopsFails first h.bind

theorem spreadChildFails (brace : Token) (dots : c.Takes .script "..." c₁)
    (h : Fails x (inner .expression) bad .script d c₁) : Fails x (bracedContents inner brace) bad .script d c :=
  consumeFails dots (List.mem_singleton_self "...") fun _ => h.bind

theorem fragmentFails {b b' : Cursor} (less : c.Takes m "<" b) (greater : b.Takes m ">" b')
    (room : d < x.config.maxDepth) (opens : c.Takes .jsx "<" c₁) (opened : c₁.Takes .jsx ">" c₂) (h : ManyFails x (child inner) bad .jsx (d + 1) c₂) :
    Fails x (fragment inner) bad m d c := by
  intro p rests
  refine (takesCurrentIs less rests).bind ?_
  rintro _ p₁ ⟨rfl, same₁⟩
  have rests₁ := rests.unmoved same₁
  refine (peekIsOf less greater rests₁).bind ?_
  rintro _ p₂ ⟨rfl, same₂⟩
  have inside : Fails x (children inner) bad .jsx (d + 1) c₂ := h.many.bind
  have body : Fails x (fragmentBody inner) bad .jsx (d + 1) c :=
    expectFails opens fun _ => expectFails opened fun _ => inside.bind
  exact (deeperFails room (withModeFails body)).bind p₂ (rests₁.unmoved same₂)

theorem elementFails {k : Token.Kind} {b : Cursor} (less : c.Takes m "<" c₁) (next : c₁.next? m = some (k, b))
    (other : k ≠ .punctuator "/") (room : d < x.config.maxDepth) (h : Fails x (elementBody inner) bad .jsx (d + 1) c) :
    Fails x (element inner) bad m d c := by
  intro p rests
  refine (takesCurrentIs less rests).bind ?_
  rintro _ p₁ ⟨rfl, same₁⟩
  have rests₁ := rests.unmoved same₁
  refine (peekIsOf less next rests₁).bind ?_
  rintro _ p₂ ⟨rfl, same₂⟩
  rw [beq_eq_false_iff_ne.mpr other]
  exact (deeperFails room (withModeFails h)).bind p₂ (rests₁.unmoved same₂)

variable {own : Node} {as ns : List Node} {c₃ c₄ c₅ : Cursor}

theorem attributesFail (opens : c.Takes .jsx "<" c₁) (name : ReadsName x.file true own c₁ c₂)
    (h : ManyFails x (attribute? inner) bad .jsx d c₂) : Fails x (elementBody inner) bad .jsx d c := by
  have inside : Fails x (attributes inner) bad .jsx d c₂ := h.many.bind
  exact expectFails opens fun _ => (givesRequired (yieldsName name)).fails inside.bind

theorem tailFails (opens : c.Takes .jsx "<" c₁) (name : ReadsName x.file true own c₁ c₂)
    (listed : Collects x (attribute? inner) (· = as) .jsx d c₂ c₃) (opened : c₃.Takes .jsx ">" c₄)
    (h : Fails x (elementTail inner own false) bad .jsx d c₄) : Fails x (elementBody inner) bad .jsx d c := by
  refine expectFails opens fun _ => (givesRequired (yieldsName name)).fails (listed.attributes.fails ?_)
  exact stopsFails (stopsOf opened (by decide)) (expectFails opened fun _ => h.bind)

theorem childrenFail (h : ManyFails x (child inner) bad .jsx d c) :
    Fails x (elementTail inner own false) bad .jsx d c := by
  have inside : Fails x (children inner) bad .jsx d c := h.many.bind
  exact inside.bind

theorem closingFails (inside : Collects x (child inner) (· = ns) .jsx d c c₁)
    (h : Fails x (closingTag own) bad .jsx d c₁) : Fails x (elementTail inner own false) bad .jsx d c := inside.children.fails h.bind

theorem mismatchFails {closing : Node} (closes : c.Takes .jsx "<" c₁) (slash : c₁.Takes .jsx "/" c₂)
    (name : ReadsName x.file true closing c₂ c₃) (closed : c₃.Takes .jsx ">" c') (differ : own.sameName closing = false)
    (h : bad (mismatchedClosingTag own closing)) : Fails x (closingTag own) bad .jsx d c := by
  refine expectFails closes fun _ => expectFails slash fun _ => (givesRequired (yieldsName name)).fails ?_
  refine expectFails closed fun _ p _ => ?_
  rw [differ]
  exact meetsFail h

end Markup

section Inside

theorem innerFails {k : Construct} (room : c.rest.length < b)
    (h : ∀ b, c.rest.length ≤ b → Fails x (construct (within b) k) bad m d c) : Fails x (within b k) bad m d c := by
  cases b with
  | zero => cases room
  | succ b => exact h b (Nat.le_of_lt_succ room)

theorem parseFails {source : String} {config : Config} {file : Option String}
    (h : ∀ b, (Cursor.start source).rest.length ≤ b →
      Fails ⟨config, file⟩ (construct (within b) .expression) bad .script 0 (.start source)) :
    ∃ e, parse source config file = .error (.error e) ∧ bad e := by
  have rests := startRests source config file
  have first : Fails ⟨config, file⟩ (rule .expression) bad .script 0 (.start source) := by
    intro p rests
    have run := innerFails (k := .expression) (b := p.scanner.cursor.rest.length + 1)
      (by rw [rests.scanner.cursor]; exact Nat.lt_succ_self _) h p rests
    unfold Meets rule at *
    exact run
  have whole : Fails ⟨config, file⟩ wholeExpression bad .script 0 (.start source) := (requiredFails first).bind
  have run := whole _ rests
  unfold Meets at run
  unfold parse
  cases ran : wholeExpression (Parser.start source config file) with
  | ok r p' =>
      rw [ran] at run
      exact run.elim
  | error e p' =>
      rw [ran] at run
      cases e with
      | error e => exact ⟨e, rfl, run⟩
      | exhausted | misshapen => exact run.elim

end Inside

end JsxTree.Grammar
