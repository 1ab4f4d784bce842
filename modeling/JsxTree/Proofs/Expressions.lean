import JsxTree.Proofs.Markup

/-! The rules for expressions, and with them the grammar as a whole: whatever the budget, a rule
answers wherever fewer characters are left. -/
namespace JsxTree.Grammar

open Cursor JsxTree.Parser

variable {x : Setting} {m : Mode} {d limit : Nat} {c c' : Cursor} {q : Position} {p : Parser}
  {bad : ParseError → Parser → Prop} {inner : Inner}

section Primary

theorem meetsIdentifier (h : Stands x m d c p) : Meets identifier p (fun r p' => match r with
    | none => (∀ s c', c.next? m ≠ some (.identifier s, c')) ∧ Unmoved p p'
    | some n => ∃ s c', c.next? m = some (.identifier s, c') ∧
        n = ⟨.identifier s, c.spanTo c' x.file⟩ ∧ Rests x m d c' p') bad := by
  refine (meetsTokenWhere h isIdentifier).bind fun t p' outcome => ?_
  cases t with
  | none =>
      refine ⟨fun s c' next => ?_, outcome.2⟩
      have other := outcome.1 _ _ next
      cases other
  | some t =>
      obtain ⟨c', next, fits, span, rests⟩ := outcome
      obtain ⟨kind, comments, place⟩ := t
      cases kind with
      | identifier s =>
          simp only at span
          subst span
          refine (restsComplete rests rfl (skipReaches next).position).bind ?_
          rintro _ _ ⟨rfl, rfl⟩
          exact ⟨s, c', next, rfl, rests⟩
      | _ => simp [isIdentifier] at fits

theorem requiredIdentifier (h : Rests x m d c p) (before : q ≤ c.position) :
    Meets (required identifier) p (fun n p' => ∃ s c', c.next? m = some (.identifier s, c') ∧
      n = ⟨.identifier s, c.spanTo c' x.file⟩ ∧ Rests x m d c' p') (Failed x m d q) := by
  refine meetsRequired ((meetsIdentifier h.stands).result fun r p' outcome => ?_)
  cases r with
  | none => exact (h.keeps before).unmoved outcome.2
  | some n => exact outcome

theorem literalHasValue {k : Token.Kind} (h : k.isLiteral = true) : ∃ v, literalValue? k = some v := by
  cases k <;> simp_all [Token.Kind.isLiteral, literalValue?]

theorem meetsLiteralToken {k : Token.Kind} (h : Stands x m d c p) (next : c.next? m = some (k, c'))
    (fits : k.isLiteral = true) : Meets literalToken p (Reply x .primary m d c p) bad := by
  obtain ⟨v, value⟩ := literalHasValue fits
  refine (meetsAdvance h).bind fun t p' outcome => ?_
  cases t with
  | none => rw [next] at outcome; cases outcome.1
  | some t =>
      obtain ⟨c₁, next', span, rests⟩ := outcome
      obtain ⟨rfl, rfl⟩ : k = t.kind ∧ c' = c₁ := by rw [next] at next'; simpa using next'
      refine (meetsLiteral rests value next span).result ?_
      rintro _ _ ⟨rfl, rfl⟩
      exact ⟨c', .literal next value, rests⟩

theorem meetsParenthesized (answers : ∀ k, Answers x (Construct.phrase k) limit (inner k)) {c₁ : Cursor}
    (opens : c.Takes m "(" c₁) (h : Stands x m d c p) (room : c.rest.length < limit + 1) :
    Meets (parenthesized inner) p
      (fun n p' => ∃ c₂ c', Reads x (.expression n) m d c₁ c₂ ∧ c₂.Takes m ")" c' ∧ Rests x m d c' p')
      (Failed x m d p.scanner.lastEnd) := by
  refine (meetsExpect h (Position.leRefl _) "(").bind ?_
  rintro _ p₁ ⟨c₂, opens', -, -, rests⟩
  obtain rfl : c₁ = c₂ := by rw [opens] at opens'; simpa using opens'
  have shorter := (nextAdvances opens).shorter
  exact requiredExpressionClosed answers rests (by omega)
    (Position.leTrans h.scanner.behind (nextReaches opens).position) ")"

theorem meetsGrouped (answers : ∀ k, Answers x (Construct.phrase k) limit (inner k)) {c₁ : Cursor}
    (opens : c.Takes m "(" c₁) (h : Stands x m d c p) (room : c.rest.length < limit + 1) :
    Meets (deeper (parenthesized inner)) p (Found x .primary m d c) (Failed x m d p.scanner.lastEnd) := by
  refine meetsDeeper (h.keeps (Position.leRefl _)) fun space => ?_
  refine (meetsParenthesized answers opens h.enter room).result ?_
  rintro n p' ⟨c₂, c', reads, closes, rests⟩
  exact ⟨c', .parenthesized opens space reads closes, rests.leave⟩

theorem meetsMarkupPrimary (answers : ∀ k, Answers x (Construct.phrase k) limit (inner k))
    (allowed : x.config.jsx = true) (h : Stands x m d c p) (room : c.rest.length < limit + 1) :
    Meets (do match ← fragment inner with
      | some markup => return some markup
      | none => element inner) p (Reply x .primary m d c p) (Failed x m d p.scanner.lastEnd) := by
  refine (fragmentAnswers answers m d c p h room).bind fun r p₁ reply => ?_
  cases r with
  | some n =>
      obtain ⟨c', reads, rests⟩ := reply
      exact ⟨c', .fragmentPrimary allowed reads, rests⟩
  | none =>
      have same : Unmoved p p₁ := reply
      rw [← same.lastEnd]
      refine (elementAnswers answers m d c p₁ (h.unmoved same) room).result fun r p₂ reply => ?_
      cases r with
      | some n =>
          obtain ⟨c', reads, rests⟩ := reply
          exact ⟨c', .elementPrimary allowed reads, rests⟩
      | none => exact same.trans reply

theorem primaryAnswers (answers : ∀ k, Answers x (Construct.phrase k) limit (inner k)) :
    Answers x .primary (limit + 1) (primary inner) := by
  intro m d c p h room
  refine (meetsCurrent h).bind fun t p₁ ⟨same, first⟩ => ?_
  cases t with
  | none => exact same
  | some t =>
      obtain ⟨c₁, next, -⟩ := first
      have stands := h.unmoved same
      rw [← same.lastEnd]
      -- Looking at the token has not moved the parser: what leaves `p₁` where it is leaves `p` there.
      have moved {r : Option Node} {p' : Parser} (reply : Reply x .primary m d c p₁ r p') : Reply x .primary m d c p r p' := by
        cases r with
        | none => exact same.trans reply
        | some n => exact reply
      dsimp only
      split
      · refine (meetsIdentifier stands).result fun r p₂ outcome => ?_
        cases r with
        | none => exact same.trans outcome.2
        | some n =>
            obtain ⟨s, c', own, rfl, rests⟩ := outcome
            exact ⟨c', .identifier own, rests⟩
      · split
        · rename_i fits
          exact (meetsLiteralToken stands next fits).result fun r p₂ reply => moved reply
        · split
          · rename_i opens
            have opens : c.Takes m "(" c₁ := by rw [Token.isPunctuatorIff.mp opens] at next; exact next
            exact (meetsGrouped answers opens stands room).bind fun n p' found => found
          · have read : Meets get p₁ (fun r p' => r = p₁ ∧ p' = p₁) (Failed x m d p₁.scanner.lastEnd) := ⟨rfl, rfl⟩
            refine read.bind ?_
            rintro _ _ ⟨rfl, rfl⟩
            split
            · rename_i allowed
              have allowed : x.config.jsx = true := by rw [← stands.config]; simp_all
              exact (meetsMarkupPrimary answers allowed stands room).result fun r p₂ reply => moved reply
            · exact same

end Primary

section Suffixes

theorem restsMember (h : Rests x m d c p) {object property : Node} {computed : Bool}
    (ordered : object.span.start ≤ c.position) : Meets (completeMember object property computed) p
      (fun n p' => n = ⟨.member object property computed, object.spanUpTo c x.file⟩ ∧ p' = p) bad :=
  restsComplete h rfl ordered

theorem meetsArgument (answers : ∀ k, Answers x (Construct.phrase k) limit (inner k)) (h : Rests x m d c p)
    (room : c.rest.length < limit) : Meets (separatedItem (inner .expression) [","]) p
      (Turn x m d (·.Stops [","] m) (fun c s c' => ∀ ns c'', Reads x (.moreArguments ns) m d c' c'' →
        Reads x (.moreArguments (s.item :: ns)) m d c c'') c p) (Failed x m d c.position) := by
  have next : ∀ (c₁ : Cursor) (p₁ : Parser), c.Advances c₁ → Rests x m d c₁ p₁ →
      Meets (inner .expression) p₁ (Taken x m d (fun c n c' => Reads x (.expression n) m d c c') c₁ p₁)
        (Failed x m d c₁.position) := by
    intro c₁ p₁ advances rests₁
    refine ((answers .expression).rests rests₁ (Nat.lt_trans advances.shorter room)).result fun r p₂ reply => ?_
    cases r with
    | none => exact reply
    | some n =>
        obtain ⟨c', reads, rests⟩ := reply
        exact ⟨c', reads, reads.goes.reaches, rests⟩
  refine (meetsSeparatedItem h next).result fun r p₁ outcome => ?_
  cases r with
  | none => exact outcome
  | some s =>
      obtain ⟨o, member, c₁, c', comma, -, reads, advances, rests₁⟩ := outcome
      cases List.mem_singleton.mp member
      exact ⟨c', fun ns c'' more => .moreArguments comma reads more, advances, rests₁⟩

theorem meetsMoreArguments (answers : ∀ k, Answers x (Construct.phrase k) limit (inner k)) (h : Rests x m d c p)
    (room : c.rest.length < limit) : Meets (many (separatedItem (inner .expression) [","])) p
      (fun items p' => ∃ c', Reads x (.moreArguments (items.map (·.item))) m d c c' ∧ c.Reaches c' ∧ Rests x m d c' p')
      (Failed x m d c.position) :=
  @meetsMany (Separated Node) x m d limit c p _ _ _ (fun c items c' => Reads x (.moreArguments (items.map (·.item))) m d c c')
    (fun _ stop => .noMoreArguments stop) (fun _ _ _ _ _ step more => step _ _ more)
    (fun _ _ => meetsArgument answers) h room

theorem meetsArgumentList (answers : ∀ k, Answers x (Construct.phrase k) limit (inner k))
    (h : Rests x m d c p) (room : c.rest.length < limit) : Meets (separatedList (inner .expression) [","]) p
      (fun items p' => ∃ c₁, (∀ c', c₁.Takes m ")" c' → Reads x (.arguments (items.map (·.item))) m d c c₁) ∧
        c.Reaches c₁ ∧ Rests x m d c₁ p') (Failed x m d c.position) := by
  refine ((answers .expression).rests h room).bind fun r p₁ reply => ?_
  cases r with
  | none => exact ⟨c, fun c' closes => .noArguments closes, c.reachesRefl, h.unmoved reply⟩
  | some n =>
      obtain ⟨c₁, reads, rests₁⟩ := reply
      have reached : c.Advances c₁ := reads.goes
      refine ((meetsMoreArguments answers rests₁ (Nat.lt_trans reached.shorter room)).earlier
        reached.reaches.position).bind ?_
      rintro items p₂ ⟨c₂, more, reaches, rests₂⟩
      exact ⟨c₂, fun _ _ => .arguments reads more, reached.reaches.trans reaches, rests₂⟩

theorem meetsArguments (answers : ∀ k, Answers x (Construct.phrase k) limit (inner k))
    (h : Rests x m d c p) (room : c.rest.length < limit) (before : q ≤ c.position) :
    Meets (arguments inner) p (fun ns p' => ∃ c₁ c', Reads x (.arguments ns) m d c c₁ ∧ c₁.Takes m ")" c' ∧
      Rests x m d c' p') (Failed x m d q) := by
  refine ((meetsArgumentList answers h room).earlier before).bind ?_
  rintro items p₁ ⟨c₁, reads, reaches, rests₁⟩
  refine (restsExpect rests₁ (Position.leTrans before reaches.position) ")").bind ?_
  rintro _ p₂ ⟨c', closes, -, rests₂⟩
  exact ⟨c₁, c', reads c' closes, closes, rests₂⟩

def Suffixed (x : Setting) (m : Mode) (d : Nat) (object : Node) (c : Cursor) (p : Parser) : Option Node → Parser → Prop :=
  Turn x m d (·.Stops [".", "[", "("] m) (fun c b c₁ =>
    (∀ n c', Reads x (.suffixes b n) m d c₁ c' → Reads x (.suffixes object n) m d c c') ∧
    b.span.start ≤ c₁.position) c p

variable {object : Node} {c₁ : Cursor} {p₁ : Parser}

theorem meetsMember (ordered : object.span.start ≤ c.position) (dot : c.Takes m "." c₁) (h : Rests x m d c₁ p₁) :
    Meets (do return some (← completeMember object (← required identifier) false)) p₁ (Suffixed x m d object c p)
      (Failed x m d c.position) := by
  refine (requiredIdentifier h (nextReaches dot).position).bind ?_
  rintro _ p₂ ⟨s, c₂, own, rfl, rests₂⟩
  have reached := (nextAdvances dot).then (nextReaches own)
  have later := Position.leTrans ordered reached.reaches.position
  refine (restsMember rests₂ later).bind ?_
  rintro _ _ ⟨rfl, rfl⟩
  exact ⟨c₂, ⟨fun n c' more => .memberSuffix dot own more, later⟩, reached, rests₂⟩

theorem meetsComputed (answers : ∀ k, Answers x (Construct.phrase k) limit (inner k))
    (ordered : object.span.start ≤ c.position) (opens : c.Takes m "[" c₁) (h : Rests x m d c₁ p₁)
    (room : c.rest.length < limit) :
    Meets (do return some (← completeMember object (← deeper (computedProperty inner)) true)) p₁
      (Suffixed x m d object c p) (Failed x m d c.position) := by
  have advances := nextAdvances opens
  have before := advances.reaches.position
  have body : Meets (deeper (computedProperty inner)) p₁ (fun n p' => ∃ c₂ c₃, d < x.config.maxDepth ∧
      Reads x (.expression n) m (d + 1) c₁ c₂ ∧ c₂.Takes m "]" c₃ ∧ Rests x m d c₃ p') (Failed x m d c.position) := by
    refine meetsDeeper (h.keeps before) fun space => ?_
    refine (requiredExpressionClosed answers h.enter (Nat.lt_trans advances.shorter room) before "]").result ?_
    rintro n p' ⟨c₂, c₃, reads, closes, rests⟩
    exact ⟨c₂, c₃, space, reads, closes, rests.leave⟩
  refine body.bind ?_
  rintro property p₂ ⟨c₂, c₃, space, reads, closes, rests₂⟩
  have reached := advances.then (reads.goes.reaches.trans (nextReaches closes))
  have later := Position.leTrans ordered reached.reaches.position
  refine (restsMember rests₂ later).bind ?_
  rintro _ _ ⟨rfl, rfl⟩
  exact ⟨c₃, ⟨fun n c' more => .computedSuffix opens space reads closes more, later⟩, reached, rests₂⟩

theorem meetsCall (answers : ∀ k, Answers x (Construct.phrase k) limit (inner k))
    (ordered : object.span.start ≤ c.position) (opens : c.Takes m "(" c₁) (h : Rests x m d c₁ p₁)
    (room : c.rest.length < limit) :
    Meets (call inner object) p₁ (fun b => Suffixed x m d object c p (some b)) (Failed x m d c.position) := by
  have advances := nextAdvances opens
  have before := advances.reaches.position
  have body : Meets (deeper (arguments inner)) p₁ (fun ns p' => ∃ c₂ c₃, d < x.config.maxDepth ∧
      Reads x (.arguments ns) m (d + 1) c₁ c₂ ∧ c₂.Takes m ")" c₃ ∧ Rests x m d c₃ p') (Failed x m d c.position) := by
    refine meetsDeeper (h.keeps before) fun space => ?_
    refine (meetsArguments answers h.enter (Nat.lt_trans advances.shorter room) before).result ?_
    rintro ns p' ⟨c₂, c₃, reads, closes, rests⟩
    exact ⟨c₂, c₃, space, reads, closes, rests.leave⟩
  refine body.bind ?_
  rintro ns p₂ ⟨c₂, c₃, space, reads, closes, rests₂⟩
  have inside : c₁.Reaches c₂ := reads.goes
  have reached := advances.then (inside.trans (nextReaches closes))
  have later := Position.leTrans ordered reached.reaches.position
  refine (restsComplete rests₂ rfl later).result ?_
  rintro _ _ ⟨rfl, rfl⟩
  exact ⟨c₃, ⟨fun n c' more => .callSuffix opens space reads closes more, later⟩, reached, rests₂⟩

theorem meetsSuffix (answers : ∀ k, Answers x (Construct.phrase k) limit (inner k)) (object : Node)
    (ordered : object.span.start ≤ c.position) (h : Rests x m d c p) (room : c.rest.length < limit) :
    Meets (suffix inner object) p (Suffixed x m d object c p) (Failed x m d c.position) := by
  refine (meetsConsume h.stands ["."]).bind fun t p₁ dotless => ?_
  cases t with
  | some t =>
      obtain ⟨o, member, c₁, dot, -, -, rests₁⟩ := dotless
      cases List.mem_singleton.mp member
      exact meetsMember ordered dot rests₁
  | none =>
      have rests₁ := h.unmoved dotless.2
      refine (meetsConsume rests₁.stands ["["]).bind fun t p₂ bracketless => ?_
      cases t with
      | some t =>
          obtain ⟨o, member, c₁, opens, -, -, rests₂⟩ := bracketless
          cases List.mem_singleton.mp member
          exact meetsComputed answers ordered opens rests₂ room
      | none =>
          have rests₂ := rests₁.unmoved bracketless.2
          refine (meetsConsume rests₂.stands ["("]).bind fun t p₃ parenless => ?_
          cases t with
          | some t =>
              obtain ⟨o, member, c₁, opens, -, -, rests₃⟩ := parenless
              cases List.mem_singleton.mp member
              exact (meetsCall answers ordered opens rests₃ room).bind fun b p₄ suffixed => suffixed
          | none =>
              refine ⟨fun o c' next member => ?_, (dotless.2.trans bracketless.2).trans parenless.2⟩
              simp only [List.mem_cons, List.not_mem_nil, or_false] at member
              obtain rfl | rfl | rfl := member
              · exact dotless.1 _ c' next (List.mem_singleton_self _)
              · exact bracketless.1 _ c' next (List.mem_singleton_self _)
              · exact parenless.1 _ c' next (List.mem_singleton_self _)

theorem callOrMemberAnswers (answers : ∀ k, Answers x (Construct.phrase k) limit (inner k)) :
    Answers x .chain (limit + 1) (callOrMember inner) := by
  intro m d c p h room
  refine (primaryAnswers answers m d c p h room).bind fun r p₁ reply => ?_
  cases r with
  | none => exact reply
  | some object =>
      obtain ⟨c₁, first, rests₁⟩ := reply
      have advances : c.Advances c₁ := first.goes
      have shorter := advances.shorter
      have ordered : object.span.start ≤ c₁.position := Laid.ordered first.laid
      have grown := @meetsGrow Node x m d limit c₁ p₁ (suffix inner) (fun a c b c₁ =>
          ∀ n c', Reads x (.suffixes b n) m d c₁ c' → Reads x (.suffixes a n) m d c c')
        (·.Stops [".", "[", "("] m) (fun a c n c' => Reads x (.suffixes a n) m d c c')
        (fun a c => a.span.start ≤ c.position) (fun a c stop => .noSuffix stop)
        (fun a c b c₁ z c' step more => step z c' more)
        (fun a c p ordered rests room => meetsSuffix answers a ordered rests room)
        object ordered rests₁ (by omega)
      refine (grown.earlier (Position.leTrans h.scanner.behind advances.reaches.position)).bind ?_
      rintro n p₂ ⟨c', more, -, rests₂⟩
      exact ⟨c', .chain first more, rests₂⟩

end Suffixes

section Operators

theorem unaryAnswers (answers : ∀ k, Answers x (Construct.phrase k) limit (inner k)) :
    Answers x .unary (limit + 1) (unary inner) := by
  intro m d c p h room
  have behind := h.scanner.behind
  refine (meetsConsume h prefixOperators).bind fun t p₁ outcome => ?_
  cases t with
  | none =>
      rw [← outcome.2.lastEnd]
      refine (callOrMemberAnswers answers m d c p₁ (h.unmoved outcome.2) room).result fun r p₂ reply => ?_
      cases r with
      | none => exact outcome.2.trans reply
      | some n =>
          obtain ⟨c', reads, rests⟩ := reply
          exact ⟨c', .plainUnary outcome.1 reads, rests⟩
  | some t =>
      obtain ⟨o, known, c₁, operator, kind, span, rests₁⟩ := outcome
      have advances := nextAdvances operator
      have shorter := advances.shorter
      have before := Position.leTrans behind advances.reaches.position
      have body : Meets (deeper (inner .unary)) p₁ (fun r p' => match r with
          | none => Unmoved p₁ p'
          | some n => ∃ c', d < x.config.maxDepth ∧ Reads x (.unary n) m (d + 1) c₁ c' ∧ Rests x m d c' p')
          (Failed x m d p.scanner.lastEnd) := by
        refine meetsDeeper (rests₁.keeps before) fun space => ?_
        refine (((answers .unary).rests rests₁.enter (by omega)).earlier before).result fun r p' reply => ?_
        cases r with
        | none => exact ⟨reply.config, by rw [Parser.leave, reply.depth]; rfl, reply.asserting, reply.scanner⟩
        | some n =>
            obtain ⟨c', reads, rests⟩ := reply
            exact ⟨c', space, reads, rests.leave⟩
      refine body.bind fun r p₂ outcome => ?_
      cases r with
      | none => exact meetsFailUnexpected ((rests₁.unmoved outcome).keeps before)
      | some n =>
          obtain ⟨c', space, reads, rests₂⟩ := outcome
          obtain ⟨kind', comments, place⟩ := t
          simp only at kind span
          subst kind span
          have reached : c₁.Advances c' := reads.goes
          refine (restsComplete rests₂ rfl ((skipReaches operator).trans reached.reaches).position).bind ?_
          rintro _ _ ⟨rfl, rfl⟩
          exact ⟨c', .unary operator known space reads, rests₂⟩

inductive Operands (x : Setting) (level : Level) (tighter : List Level) (m : Mode) (d : Nat) :
    Cursor → List (Separated (Node × Position)) → Cursor → Prop where
  | nil {c : Cursor} (stop : c.Stops level.operators m) : Operands x level tighter m d c [] c
  | cons {s : Option Token} {n : Node} {o : String} {items : List (Separated (Node × Position))}
      {c c₁ c₂ c' : Cursor} (operator : c.Takes m o c₁) (known : o ∈ level.operators)
      (text : (s.map Token.text).getD "" = o) (operand : Reads x (.ladder tighter n) m d c₁ c₂)
      (more : Operands x level tighter m d c₂ items c') :
      Operands x level tighter m d c (⟨s, n, c₂.position⟩ :: items) c'

variable {level : Level} {tighter : List Level}

theorem joinFormKind (join : Join) (o : String) (l r : Node) : join.kind = (join.form o l r).kind := by
  cases join <;> rfl

theorem meetsFold {items : List (Separated (Node × Position))} {left : Node}
    (h : Operands x level tighter m d c items c') (path : p.scanner.file = x.file)
    (ordered : left.span.start ≤ c.position) : Meets (items.foldlM (joinOperand level.join) left) p
      (fun n p' => p' = p ∧ Reads x (.operands level tighter left n) m d c c') bad := by
  induction h generalizing left with
  | nil stop => exact ⟨rfl, .noOperand stop⟩
  | @cons s n o items c c₁ c₂ c' operator known text operand _ ih =>
      have later := Position.leTrans ordered
        ((nextReaches operator).trans (Reads.goes operand).reaches).position
      have joined : Meets (joinOperand level.join left ⟨s, n, c₂.position⟩) p
          (fun n' p' => n' = ⟨level.join.form o left n, left.spanUpTo c₂ x.file⟩ ∧ p' = p) bad := by
        refine meetsComplete (joinFormKind _ _ _ _) later ⟨?_, rfl⟩
        rw [text, path]
        rfl
      rw [List.foldlM_cons]
      refine joined.bind ?_
      rintro _ _ ⟨rfl, rfl⟩
      have rest := @ih ⟨level.join.form o left n, left.spanUpTo c₂ x.file⟩ later
      refine rest.result ?_
      rintro n' _ ⟨rfl, more⟩
      exact ⟨rfl, .operand operator known operand more⟩

theorem meetsOperandWithEnd {rule : Rule Node} {ph : Node → Phrase} (answers : Answers x ph limit rule)
    (h : Stands x m d c p) (room : c.rest.length < limit) : Meets (operandWithEnd rule) p (fun r p' => match r with
      | none => Unmoved p p'
      | some (n, after) => ∃ c', Reads x (ph n) m d c c' ∧ after = c'.position ∧ Rests x m d c' p')
      (Failed x m d p.scanner.lastEnd) := by
  refine (answers m d c p h room).bind fun r p₁ reply => ?_
  cases r with
  | none => exact reply
  | some n =>
      obtain ⟨c', reads, rests⟩ := reply
      exact ⟨c', reads, rests.scanner.ended, rests⟩

def Listed (x : Setting) (level : Level) (tighter : List Level) (m : Mode) (d : Nat) (c : Cursor) (p : Parser) :
    List (Separated (Node × Position)) → Parser → Prop
  | [], p' => Unmoved p p'
  | first :: others, p' => ∃ c₁ c', Reads x (.ladder tighter first.item.1) m d c c₁ ∧
      Operands x level tighter m d c₁ others c' ∧ Rests x m d c' p'

theorem meetsOperand {operand : Rule Node} (answers : Answers x (.ladder tighter) limit operand) (h : Rests x m d c p)
    (room : c.rest.length < limit) : Meets (separatedItem (operandWithEnd operand) level.operators) p
      (Turn x m d (·.Stops level.operators m) (fun c s c' => ∀ items c'', Operands x level tighter m d c' items c'' →
        Operands x level tighter m d c (s :: items) c'') c p) (Failed x m d c.position) := by
  have next : ∀ (c₁ : Cursor) (p₁ : Parser), c.Advances c₁ → Rests x m d c₁ p₁ →
      Meets (operandWithEnd operand) p₁ (Taken x m d (fun c b c' => Reads x (.ladder tighter b.1) m d c c' ∧
        b.2 = c'.position) c₁ p₁) (Failed x m d c₁.position) := by
    intro c₁ p₁ advances rests₁
    rw [← rests₁.scanner.ended]
    refine (meetsOperandWithEnd answers rests₁.stands (Nat.lt_trans advances.shorter room)).result fun r p₂ outcome => ?_
    cases r with
    | none => exact outcome
    | some b =>
        obtain ⟨c', reads, after, rests⟩ := outcome
        exact ⟨c', ⟨reads, after⟩, reads.goes.reaches, rests⟩
  refine (meetsSeparatedItem h next).result fun r p₁ outcome => ?_
  cases r with
  | none => exact outcome
  | some s =>
      obtain ⟨o, known, c₁, c', operator, text, ⟨reads, after⟩, advances, rests₁⟩ := outcome
      obtain ⟨separator, n, position⟩ := s
      simp only at after reads text
      subst after
      exact ⟨c', fun items c'' more => .cons operator known text reads more, advances, rests₁⟩

theorem meetsOperands {operand : Rule Node} (answers : Answers x (.ladder tighter) limit operand) (h : Rests x m d c p)
    (room : c.rest.length < limit) : Meets (many (separatedItem (operandWithEnd operand) level.operators)) p
      (fun items p' => ∃ c', Operands x level tighter m d c items c' ∧ c.Reaches c' ∧ Rests x m d c' p')
      (Failed x m d c.position) :=
  @meetsMany (Separated (Node × Position)) x m d limit c p _ _ _ (Operands x level tighter m d)
    (fun _ stop => .nil stop) (fun _ _ _ items c' step more => step items c' more)
    (fun _ _ => meetsOperand answers) h room

theorem meetsOperandList {operand : Rule Node} (answers : Answers x (.ladder tighter) limit operand)
    (h : Stands x m d c p) (room : c.rest.length < limit) :
    Meets (separatedList (operandWithEnd operand) level.operators) p (Listed x level tighter m d c p)
      (Failed x m d p.scanner.lastEnd) := by
  refine (meetsOperandWithEnd answers h room).bind fun r p₁ outcome => ?_
  cases r with
  | none => exact outcome
  | some first =>
      obtain ⟨c₁, reads, -, rests₁⟩ := outcome
      have advances : c.Advances c₁ := reads.goes
      refine ((meetsOperands answers rests₁ (Nat.lt_trans advances.shorter room)).earlier
        (Position.leTrans h.scanner.behind advances.reaches.position)).bind ?_
      rintro items p₂ ⟨c', more, -, rests₂⟩
      exact ⟨c₁, c', reads, more, rests₂⟩

theorem foldAnswers {operand : Rule Node} (answers : Answers x (.ladder tighter) limit operand) :
    Answers x (.ladder (level :: tighter)) limit (leftFold operand level.operators level.join) := by
  intro m d c p h room
  refine (meetsOperandList answers h room).bind fun items p₁ outcome => ?_
  cases items with
  | nil => exact outcome
  | cons first others =>
      obtain ⟨c₁, c', reads, more, rests⟩ := outcome
      refine (meetsFold more rests.scanner.path (Laid.ordered reads.laid)).bind ?_
      rintro n _ ⟨rfl, operands⟩
      exact ⟨c', .level reads operands, rests⟩

theorem ladderAnswers {operand : Rule Node} (answers : Answers x .unary limit operand) (levels : List Level) :
    Answers x (.ladder levels) limit
      (levels.foldr (fun level operand => leftFold operand level.operators level.join) operand) := by
  induction levels with
  | nil =>
      intro m d c p h room
      refine (answers m d c p h room).result fun r p₁ reply => ?_
      cases r with
      | none => exact reply
      | some n =>
          obtain ⟨c', reads, rests⟩ := reply
          exact ⟨c', .bottom reads, rests⟩
  | cons level levels ih => exact foldAnswers ih

end Operators

theorem constructAnswers (answers : ∀ k, Answers x (Construct.phrase k) limit (inner k)) (k : Construct) :
    Answers x (Construct.phrase k) (limit + 1) (construct inner k) := by
  cases k with
  | expression => exact ladderAnswers (unaryAnswers answers) levels
  | unary => exact unaryAnswers answers
  | fragment => exact fragmentAnswers answers
  | element => exact elementAnswers answers

theorem withinAnswers (x : Setting) (budget : Nat) (k : Construct) :
    Answers x (Construct.phrase k) budget (within budget k) := by
  induction budget generalizing k with
  | zero => exact fun m d c p _ room => absurd room (Nat.not_lt_zero _)
  | succ budget ih => exact constructAnswers ih k

theorem ruleAnswers (k : Construct) (h : Stands x m d c p) :
    Meets (rule k) p (Reply x (Construct.phrase k) m d c p) (Failed x m d p.scanner.lastEnd) := by
  have answer := withinAnswers x (p.scanner.cursor.rest.length + 1) k m d c p h
    (by rw [h.scanner.cursor]; exact Nat.lt_succ_self _)
  unfold Meets rule at *
  exact answer

theorem startStands (source : String) (config : Config) (file : Option String) :
    Stands ⟨config, file⟩ .script 0 (.start source) (Parser.start source config file) :=
  ⟨rfl, rfl, ⟨rfl, rfl, rfl, trivial, Position.leRefl _⟩⟩

theorem restsAtEnd (h : Rests x m d c p) :
    Meets atEnd p (fun yes p' => Rests x m d c p' ∧ (yes = true ↔ c.next? m = none)) bad := by
  refine meetsScan ⟨h.unmoved ⟨rfl, rfl, rfl, Scanner.currentForesees _⟩, ?_⟩
  have first := h.scanner.toStands.current
  simp only [Scanner.atEnd]
  cases token : p.scanner.current.1 with
  | none =>
      rw [token] at first
      exact iff_of_true rfl first
  | some t =>
      rw [token] at first
      obtain ⟨c₁, next, -⟩ := first
      rw [next]
      exact iff_of_false Bool.false_ne_true (Option.some_ne_none _)

theorem meetsWholeExpression (stands : Stands x .script d c p) : Meets wholeExpression p
    (fun n _ => ∃ c', Reads x (.expression n) .script d c c' ∧ c'.next? .script = none) (Failed x .script d .origin) := by
  have first : Meets (required (rule .expression)) p (Found x .expression .script d c) (Failed x .script d .origin) := by
    refine meetsRequired (((ruleAnswers .expression stands).earlier (Nat.zero_le _)).result fun r p₁ reply => ?_)
    cases r with
    | none => exact (stands.keeps (Nat.zero_le _)).unmoved reply
    | some n => exact reply
  refine first.bind ?_
  rintro n p₁ ⟨c', reads, rests⟩
  refine (restsAtEnd rests).bind fun yes p₂ ⟨rests', last⟩ => ?_
  split
  · rename_i yes
    exact ⟨c', reads, last.mp yes⟩
  · exact meetsFailUnexpected (rests'.keeps (Nat.zero_le _))

/-- A parse gives a tree that can be read from the whole source, or an error; it never runs out of
rounds and never completes a misshapen node. -/
theorem parseReads (source : String) (config : Config) (file : Option String) :
    match parse source config file with
    | .ok n => ∃ c', Reads ⟨config, file⟩ (.expression n) .script 0 (.start source) c' ∧ c'.next? .script = none
    | .error (.error _) => True
    | .error .exhausted | .error .misshapen => False := by
  have whole := meetsWholeExpression (startStands source config file)
  unfold Meets at whole
  unfold parse
  cases ran : wholeExpression (Parser.start source config file) with
  | ok n p' => rw [ran] at whole; exact whole
  | error h p' =>
      rw [ran] at whole
      cases h with
      | error e => trivial
      | exhausted => exact whole
      | misshapen => exact whole

end JsxTree.Grammar
