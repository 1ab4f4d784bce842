import JsxTree.Proofs.Answers

/-! The rules for fragments and elements. Each one is met by the relation of its own name; what the
rules for the constructs inside answer is taken for granted here. -/
namespace JsxTree.Grammar

open Cursor JsxTree.Parser

variable {x : Setting} {m : Mode} {d limit : Nat} {c c' : Cursor} {q : Position} {p : Parser}
  {bad : ParseError → Parser → Prop}

def Construct.phrase : Construct → Node → Phrase
  | .expression => .expression
  | .unary => .unary
  | .fragment => .fragment
  | .element => .element

section Names

theorem meetsJsxIdentifier (h : Stands x m d c p) : Meets jsxIdentifier p (fun r p' => match r with
    | none => (∀ s c', c.next? m ≠ some (.jsxIdentifier s, c')) ∧ Unmoved p p'
    | some n => ∃ s c', c.next? m = some (.jsxIdentifier s, c') ∧
        n = ⟨.jsxIdentifier s, c.spanTo c' x.file⟩ ∧ Rests x m d c' p') bad := by
  refine (meetsTokenWhere h isJsxIdentifier).bind fun t p' outcome => ?_
  cases t with
  | none =>
      refine ⟨fun s c' next => ?_, outcome.2⟩
      have other := outcome.1 _ _ next
      cases other
  | some t =>
      obtain ⟨c', next, fits, span, rests⟩ := outcome
      obtain ⟨kind, comments, place⟩ := t
      cases kind with
      | jsxIdentifier s =>
          simp only at span
          subst span
          refine (restsCompleteAt rests _ rfl (skipReaches next).position).bind ?_
          rintro _ _ ⟨rfl, rfl⟩
          exact ⟨s, c', next, rfl, rests⟩
      | _ => simp [isJsxIdentifier] at fits

theorem requiredJsxIdentifier (h : Rests x m d c p) (before : q ≤ c.position) :
    Meets (required jsxIdentifier) p (fun n p' => ∃ s c', c.next? m = some (.jsxIdentifier s, c') ∧
      n = ⟨.jsxIdentifier s, c.spanTo c' x.file⟩ ∧ Rests x m d c' p') (Failed x m d q) := by
  refine meetsRequired ((meetsJsxIdentifier h.stands).result fun r p' outcome => ?_)
  cases r with
  | none => exact (h.keeps before).unmoved outcome.2
  | some n => exact outcome

theorem meetsMembers (h : Rests x .jsx d c p) {object : Node} (ordered : object.span.start ≤ c.position) :
    Meets (grow memberStep object) p
      (fun n p' => ∃ c', ReadsMembers x.file object c n c' ∧ c.Reaches c' ∧ Rests x .jsx d c' p')
      (Failed x .jsx d c.position) := by
  have nil : ∀ (a : Node) (c : Cursor), c.Stops ["."] .jsx → ReadsMembers x.file a c a c :=
    fun a c stop => .stop stop
  have cons : ∀ (a : Node) (c : Cursor) (b : Node) (c₁ : Cursor) (z : Node) (c' : Cursor),
      (∃ s c₂, c.Takes .jsx "." c₂ ∧ c₂.next? .jsx = some (.jsxIdentifier s, c₁) ∧
        b = ⟨.jsxMember a ⟨.jsxIdentifier s, c₂.spanTo c₁ x.file⟩, a.spanUpTo c₁ x.file⟩) →
      ReadsMembers x.file b c₁ z c' → ReadsMembers x.file a c z c' := by
    rintro a c _ c₁ z c' ⟨s, c₂, dot, own, rfl⟩ more
    exact .step dot own more
  refine @meetsGrow Node x .jsx d (c.rest.length + 1) c p memberStep _ _ _
    (fun a c => a.span.start ≤ c.position) nil cons ?_ object ordered h (Nat.lt_succ_self _)
  intro a c p ordered rests _
  refine (meetsConsume rests.stands ["."]).bind fun t p₁ outcome => ?_
  cases t with
  | none => exact outcome
  | some t =>
      obtain ⟨o, member, c₁, dot, -, -, rests₁⟩ := outcome
      cases List.mem_singleton.mp member
      have before := (nextReaches dot).position
      refine (requiredJsxIdentifier rests₁ before).bind ?_
      rintro _ p₂ ⟨s, c₂, own, rfl, rests₂⟩
      have later : a.span.start ≤ c₂.position :=
        Position.leTrans ordered (Position.leTrans before (nextReaches own).position)
      refine (restsCompleteAt rests₂ c₂.position rfl later).bind ?_
      rintro _ _ ⟨rfl, rfl⟩
      exact ⟨c₂, ⟨⟨s, c₁, dot, own, rfl⟩, later⟩, (nextAdvances dot).then (nextReaches own), rests₂⟩

theorem meetsName (chained : Bool) (h : Stands x .jsx d c p) : Meets (name chained) p (fun r p' => match r with
    | none => (∀ s c', c.next? .jsx ≠ some (.jsxIdentifier s, c')) ∧ Unmoved p p'
    | some n => ∃ c', ReadsName x.file chained n c c' ∧ Rests x .jsx d c' p')
    (Failed x .jsx d p.scanner.lastEnd) := by
  have behind := h.scanner.behind
  refine (meetsJsxIdentifier h).bind fun r p₁ outcome => ?_
  cases r with
  | none => exact outcome
  | some n =>
      obtain ⟨s, c₁, own, rfl, rests₁⟩ := outcome
      have before := Position.leTrans behind (nextReaches own).position
      refine (meetsConsume rests₁.stands [":"]).bind fun t p₂ outcome => ?_
      cases t with
      | some t =>
          obtain ⟨o, member, c₂, colon, -, -, rests₂⟩ := outcome
          cases List.mem_singleton.mp member
          refine (requiredJsxIdentifier rests₂ (Position.leTrans before (nextReaches colon).position)).bind ?_
          rintro _ p₃ ⟨s', c₃, own', rfl, rests₃⟩
          have ordered := ((skipReaches own).trans ((nextReaches colon).trans (nextReaches own'))).position
          refine (restsComplete rests₃ rfl ordered).bind ?_
          rintro _ _ ⟨rfl, rfl⟩
          exact ⟨c₃, .namespaced own colon own', rests₃⟩
      | none =>
          have rests₂ := rests₁.unmoved outcome.2
          cases chained with
          | false => exact ⟨c₁, .simple own outcome.1, rests₂⟩
          | true =>
              have ordered : (⟨.jsxIdentifier s, c.spanTo c₁ x.file⟩ : Node).span.start ≤ c₁.position :=
                (skipReaches own).position
              have members := (meetsMembers rests₂ ordered).earlier before
              refine members.bind fun n p₃ ⟨c₂, reads, _, rests₃⟩ => ?_
              exact ⟨c₂, .chain own outcome.1 reads, rests₃⟩

theorem requiredName (chained : Bool) (h : Rests x .jsx d c p) (before : q ≤ c.position) :
    Meets (required (name chained)) p
      (fun n p' => ∃ c', ReadsName x.file chained n c c' ∧ Rests x .jsx d c' p') (Failed x .jsx d q) := by
  have own := meetsName chained h.stands
  rw [h.scanner.ended] at own
  refine meetsRequired ((own.earlier before).result fun r p' outcome => ?_)
  cases r with
  | none => exact (h.keeps before).unmoved outcome.2
  | some n => exact outcome

end Names

section Inside

variable {inner : Inner}

theorem meetsLiteral {t : Token} {v : Value} (h : Rests x m d c' p) (value : literalValue? t.kind = some v)
    (next : c.next? m = some (t.kind, c')) (span : t.span = c.spanTo c' x.file) :
    Meets (literal t) p (fun r p' => r = some ⟨.literal v t.text, c.spanTo c' x.file⟩ ∧ p' = p) bad := by
  obtain ⟨kind, comments, place⟩ := t
  simp only at value span next
  subst span
  unfold literal
  rw [value]
  refine (restsCompleteAt h _ rfl (skipReaches next).position).bind ?_
  rintro _ _ ⟨rfl, rfl⟩
  exact ⟨rfl, rfl⟩

theorem meetsStringLiteral (h : Stands x m d c p) : Meets stringLiteral p (fun r p' => match r with
    | none => Unmoved p p'
    | some n => ∃ raw c', c.next? m = some (.stringLiteral raw, c') ∧
        n = ⟨.literal (.string (Literal.unquote raw)) raw, c.spanTo c' x.file⟩ ∧ Rests x m d c' p') bad := by
  refine (meetsTokenWhere h isStringLiteral).bind fun t p' outcome => ?_
  cases t with
  | none => exact outcome.2
  | some t =>
      obtain ⟨c', next, fits, span, rests⟩ := outcome
      obtain ⟨kind, comments, place⟩ := t
      cases kind with
      | stringLiteral raw =>
          refine (meetsLiteral rests rfl next span).result ?_
          rintro _ _ ⟨rfl, rfl⟩
          exact ⟨raw, c', next, rfl, rests⟩
      | _ => simp [isStringLiteral] at fits

theorem meetsMarkup (answers : ∀ k, Answers x (Construct.phrase k) limit (inner k)) (h : Stands x m d c p)
    (room : c.rest.length < limit) : Meets (markup inner) p (fun r p' => match r with
      | none => Unmoved p p'
      | some n => ∃ c', (Reads x (.fragment n) m d c c' ∨ Reads x (.element n) m d c c') ∧ Rests x m d c' p')
      (Failed x m d p.scanner.lastEnd) := by
  refine (answers .fragment m d c p h room).bind fun r p₁ reply => ?_
  cases r with
  | some n =>
      obtain ⟨c', reads, rests⟩ := reply
      exact ⟨c', .inl reads, rests⟩
  | none =>
      have same : Unmoved p p₁ := reply
      rw [← same.lastEnd]
      refine (answers .element m d c p₁ (h.unmoved same) room).result fun r p₂ reply => ?_
      cases r with
      | some n =>
          obtain ⟨c', reads, rests⟩ := reply
          exact ⟨c', .inr reads, rests⟩
      | none => exact same.trans reply

theorem requiredExpressionClosed (answers : ∀ k, Answers x (Construct.phrase k) limit (inner k))
    (h : Rests x m d c p) (room : c.rest.length < limit) (before : q ≤ c.position) (o : String) :
    Meets (do
      let n ← requiredExpression inner
      let _ ← expect o
      return n) p (fun n p' => ∃ c₁ c', Reads x (.expression n) m d c c₁ ∧ c₁.Takes m o c' ∧ Rests x m d c' p')
      (Failed x m d q) :=
  (meetsClosed (answers .expression) h room (fun _ _ reads => reads.goes.reaches) o).earlier before

theorem meetsValueContainer (answers : ∀ k, Answers x (Construct.phrase k) limit (inner k)) {c₁ : Cursor} {brace : Token}
    (opens : c.Takes .jsx "\x7b" c₁) (span : brace.span = c.spanTo c₁ x.file) (h : Rests x .jsx d c₁ p)
    (room : c₁.rest.length < limit) (before : q ≤ c₁.position) :
    Meets (valueContainer inner brace) p
      (fun n p' => ∃ c', Reads x (.attributeValue n) .jsx d c c' ∧ Rests x .jsx d c' p') (Failed x .jsx d q) := by
  obtain ⟨kind, comments, place⟩ := brace
  simp only at span
  subst span
  have body : Meets (withMode .script do
      let expression ← requiredExpression inner
      let _ ← expect "\x7d"
      return expression) p (fun n p' => ∃ c₂ c', Reads x (.expression n) .script d c₁ c₂ ∧
        c₂.Takes .script "\x7d" c' ∧ Rests x .jsx d c' p') (Failed x .jsx d q) := by
    refine meetsWithMode h.scanner.mode ?_
    refine (requiredExpressionClosed answers (h.setMode .script) room before "\x7d").result ?_
    rintro n p' ⟨c₂, c', reads, closes, rests⟩
    exact ⟨c₂, c', reads, closes, rests.setMode .jsx⟩
  refine body.bind ?_
  rintro n p₁ ⟨c₂, c', reads, closes, rests₁⟩
  have ordered := ((skipReaches opens).trans (reads.goes.reaches.trans (nextReaches closes))).position
  refine (restsComplete rests₁ rfl ordered).result ?_
  rintro _ _ ⟨rfl, rfl⟩
  exact ⟨c', .containerValue opens reads closes, rests₁⟩

theorem meetsAttributeValue (answers : ∀ k, Answers x (Construct.phrase k) limit (inner k))
    (h : Rests x .jsx d c p) (room : c.rest.length < limit) (before : q ≤ c.position) :
    Meets (attributeValue inner) p
      (fun n p' => ∃ c', Reads x (.attributeValue n) .jsx d c c' ∧ Rests x .jsx d c' p')
      (Failed x .jsx d q) := by
  refine (meetsStringLiteral h.stands).bind fun r p₁ outcome => ?_
  cases r with
  | some n =>
      obtain ⟨raw, c', next, rfl, rests⟩ := outcome
      exact ⟨c', .stringValue next, rests⟩
  | none =>
      have rests₁ := h.unmoved outcome
      refine (meetsConsume rests₁.stands ["\x7b"]).bind fun t p₂ outcome => ?_
      cases t with
      | some t =>
          obtain ⟨o, member, c₁, opens, -, span, rests₂⟩ := outcome
          cases List.mem_singleton.mp member
          have advances := nextAdvances opens
          exact meetsValueContainer answers opens span rests₂ (Nat.lt_trans advances.shorter room)
            (Position.leTrans before advances.reaches.position)
      | none =>
          have rests₂ := rests₁.unmoved outcome.2
          have some? := meetsMarkup answers rests₂.stands room
          rw [rests₂.scanner.ended] at some?
          refine meetsRequired ((some?.earlier before).result fun r p' outcome => ?_)
          cases r with
          | none => exact (rests₂.keeps before).unmoved outcome
          | some n =>
              obtain ⟨c', reads | reads, rests⟩ := outcome
              · exact ⟨c', .fragmentValue reads, rests⟩
              · exact ⟨c', .elementValue reads, rests⟩

theorem meetsSpreadAttribute (answers : ∀ k, Answers x (Construct.phrase k) limit (inner k))
    (h : Rests x .jsx d c p) (room : c.rest.length < limit) :
    Meets (spreadAttribute inner) p (fun r p' => match r with
      | none => c.Stops ["\x7b"] .jsx ∧ Unmoved p p'
      | some n => ∃ c', Reads x (.attribute n) .jsx d c c' ∧ Rests x .jsx d c' p')
      (Failed x .jsx d c.position) := by
  refine (meetsConsume h.stands ["\x7b"]).bind fun t p₁ outcome => ?_
  cases t with
  | none => exact outcome
  | some t =>
      obtain ⟨o, member, c₁, opens, -, span, rests₁⟩ := outcome
      cases List.mem_singleton.mp member
      have advances := nextAdvances opens
      obtain ⟨kind, comments, place⟩ := t
      simp only at span
      subst span
      have body : Meets (withMode .script do
          let _ ← expect "..."
          let argument ← requiredExpression inner
          let _ ← expect "\x7d"
          return argument) p₁ (fun n p' => ∃ c₂ c₃ c', c₁.Takes .script "..." c₂ ∧
            Reads x (.expression n) .script d c₂ c₃ ∧ c₃.Takes .script "\x7d" c' ∧ Rests x .jsx d c' p')
          (Failed x .jsx d c.position) := by
        refine meetsWithMode rests₁.scanner.mode ?_
        have before := advances.reaches.position
        refine (restsExpect (rests₁.setMode .script) before "...").bind ?_
        rintro _ p₂ ⟨c₂, dots, -, rests₂⟩
        have room₂ := Nat.lt_trans (advances.then (nextReaches dots)).shorter room
        refine (requiredExpressionClosed answers rests₂ room₂
          (Position.leTrans before (nextReaches dots).position) "\x7d").result ?_
        rintro n p' ⟨c₃, c', reads, closes, rests⟩
        exact ⟨c₂, c₃, c', dots, reads, closes, rests.setMode .jsx⟩
      refine body.bind ?_
      rintro n p₂ ⟨c₂, c₃, c', dots, reads, closes, rests₂⟩
      have ordered := ((skipReaches opens).trans ((nextReaches dots).trans
        (reads.goes.reaches.trans (nextReaches closes)))).position
      refine (restsComplete rests₂ rfl ordered).bind ?_
      rintro _ _ ⟨rfl, rfl⟩
      exact ⟨c', .spreadAttribute opens dots reads closes, rests₂⟩

theorem nameOrdered {chained : Bool} {n : Node} {file : Option String} (h : ReadsName file chained n c c') :
    n.span.start ≤ c'.position := h.laid.ordered

theorem meetsNamedAttribute (answers : ∀ k, Answers x (Construct.phrase k) limit (inner k))
    (h : Rests x .jsx d c p) (room : c.rest.length < limit) :
    Meets (namedAttribute inner) p (fun r p' => match r with
      | none => (∀ s c', c.next? .jsx ≠ some (.jsxIdentifier s, c')) ∧ Unmoved p p'
      | some n => ∃ c', Reads x (.attribute n) .jsx d c c' ∧ Rests x .jsx d c' p')
      (Failed x .jsx d c.position) := by
  have own := meetsName false h.stands
  rw [h.scanner.ended] at own
  refine own.bind fun r p₁ outcome => ?_
  cases r with
  | none => exact outcome
  | some own =>
      obtain ⟨c₁, name, rests₁⟩ := outcome
      refine meetsOpenNode ((meetsConsume rests₁.stands ["="]).bind fun t p₂ outcome => ?_)
      cases t with
      | none =>
          have rests₂ := rests₁.unmoved outcome.2
          refine (restsComplete rests₂ rfl (nameOrdered name)).bind ?_
          rintro _ _ ⟨rfl, rfl⟩
          exact ⟨c₁, .plainAttribute name outcome.1, rests₂⟩
      | some t =>
          obtain ⟨o, member, c₂, equals, -, -, rests₂⟩ := outcome
          cases List.mem_singleton.mp member
          have reached := name.advances.then (nextReaches equals)
          refine (meetsAttributeValue answers rests₂ (Nat.lt_trans reached.shorter room)
            reached.reaches.position).bind ?_
          rintro value p₃ ⟨c', reads, rests₃⟩
          have ordered := Position.leTrans (nameOrdered name)
            ((nextReaches equals).trans (Reads.goes reads).reaches).position
          refine (restsComplete rests₃ rfl ordered).bind ?_
          rintro _ _ ⟨rfl, rfl⟩
          exact ⟨c', .valuedAttribute name equals reads, rests₃⟩

def EndsAttributes (c : Cursor) : Prop :=
  c.Stops ["\x7b"] .jsx ∧ ∀ s c', c.next? .jsx ≠ some (.jsxIdentifier s, c')

theorem meetsAttribute (answers : ∀ k, Answers x (Construct.phrase k) limit (inner k))
    (h : Rests x .jsx d c p) (room : c.rest.length < limit) : Meets (attribute? inner) p
      (Turn x .jsx d EndsAttributes (fun c n c' => Reads x (.attribute n) .jsx d c c') c p)
      (Failed x .jsx d c.position) := by
  refine (meetsSpreadAttribute answers h room).bind fun r p₁ outcome => ?_
  cases r with
  | some n =>
      obtain ⟨c', reads, rests⟩ := outcome
      exact ⟨c', reads, reads.goes, rests⟩
  | none =>
      refine (meetsNamedAttribute answers (h.unmoved outcome.2) room).result fun r p₂ outcome' => ?_
      cases r with
      | some n =>
          obtain ⟨c', reads, rests⟩ := outcome'
          exact ⟨c', reads, reads.goes, rests⟩
      | none => exact ⟨⟨outcome.1, outcome'.1⟩, outcome.2.trans outcome'.2⟩

theorem meetsAttributes (answers : ∀ k, Answers x (Construct.phrase k) limit (inner k))
    (h : Rests x .jsx d c p) (room : c.rest.length < limit) (before : q ≤ c.position) :
    Meets (attributes inner) p (fun r p' => ∃ ns c', r = presentList ns ∧
      Reads x (.attributes ns) .jsx d c c' ∧ Rests x .jsx d c' p') (Failed x .jsx d q) := by
  have list := @meetsMany Node x .jsx d limit c p (attribute? inner)
    (fun c n c' => Reads x (.attribute n) .jsx d c c') EndsAttributes
    (fun c ns c' => Reads x (.attributes ns) .jsx d c c')
    (fun c stop => .noAttribute stop.1 stop.2) (fun c n c₁ ns c' first more => .attributes first more)
    (fun c p rests room => meetsAttribute answers rests room) h room
  refine (list.earlier before).bind fun ns p' ⟨c', reads, _, rests⟩ => ?_
  exact ⟨ns, c', rfl, reads, rests⟩

theorem meetsTextChild (h : Rests x m d c p) : Meets textChild p (fun r p' => match r with
    | none => c.text? = none ∧ Unmoved p p'
    | some n => ∃ raw c', c.text? = some (raw, c') ∧ n = ⟨.jsxText raw raw, c.position, c'.position, x.file⟩ ∧
        Rests x m d c' p') bad := by
  have run := h.scanner.toStands.readText
  have read : Meets readText p (fun t p' => p' = { p with scanner := p.scanner.readText.2 } ∧
      t = p.scanner.readText.1) bad := ⟨rfl, rfl⟩
  refine read.bind ?_
  rintro _ _ ⟨rfl, rfl⟩
  cases outcome : p.scanner.readText with
  | mk t s' =>
      rw [outcome] at run
      cases t with
      | none =>
          obtain ⟨textless, rfl⟩ := run
          exact ⟨textless, unmovedRefl p⟩
      | some t =>
          obtain ⟨raw, c', text, rfl, rfl⟩ := run
          have taken : Meets advance { p with scanner := { p.scanner with ahead := [⟨⟨.jsxText raw, [],
              c.position, c'.position, x.file⟩, c'⟩] } }
              (fun t p' => t = some ⟨.jsxText raw, [], c.position, c'.position, x.file⟩ ∧ Rests x m d c' p') bad := by
            refine meetsScan ?_
            rw [Scanner.advanceCons rfl]
            exact ⟨rfl, h.config, h.depth,
              ⟨⟨h.scanner.path, h.scanner.mode, rfl, trivial, Position.leRefl _⟩, rfl⟩⟩
          refine taken.bind ?_
          rintro _ p'' ⟨rfl, rests⟩
          refine (restsCompleteAt rests _ rfl (textTraces text).1.reaches.position).bind ?_
          rintro _ _ ⟨rfl, rfl⟩
          exact ⟨raw, c', text, rfl, rests⟩

theorem meetsBracedContents (answers : ∀ k, Answers x (Construct.phrase k) limit (inner k)) {c₁ : Cursor}
    {brace : Token} (textless : c.text? = none) (opens : c.Takes .jsx "\x7b" c₁)
    (span : brace.span = c.spanTo c₁ x.file) (h : Rests x .script d c₁ p) (room : c₁.rest.length < limit) :
    Meets (bracedContents inner brace) p
      (fun n p' => ∃ c', Reads x (.child n) .jsx d c c' ∧ Rests x .script d c' p')
      (Failed x .script d c.position) := by
  obtain ⟨kind, comments, place⟩ := brace
  simp only at span
  subst span
  have before := (nextReaches opens).position
  have started := (skipReaches opens).position
  -- A spread needs its expression; without the dots the braces may be empty.
  refine (meetsConsume h.stands ["..."]).bind fun t p₁ outcome => ?_
  cases t with
  | some t =>
      obtain ⟨o, member, c₂, dots, -, -, rests₁⟩ := outcome
      cases List.mem_singleton.mp member
      have advances := nextAdvances dots
      have before₂ := Position.leTrans before advances.reaches.position
      refine (((answers .expression).rests rests₁ (Nat.lt_trans advances.shorter room)).earlier before₂).bind
        fun r p₂ reply => ?_
      cases r with
      | none => exact meetsFailUnexpected ((rests₁.unmoved reply).keeps before₂)
      | some n =>
          obtain ⟨c₃, reads, rests₂⟩ := reply
          have reached := reads.goes.reaches
          refine (restsExpect rests₂ (Position.leTrans before₂ reached.position) "\x7d").bind ?_
          rintro _ p₃ ⟨c', closes, -, rests₃⟩
          have ordered := Position.leTrans started
            (advances.reaches.trans (reached.trans (nextReaches closes))).position
          refine (restsComplete rests₃ rfl ordered).result ?_
          rintro _ _ ⟨rfl, rfl⟩
          exact ⟨c', .spreadChild textless opens dots reads closes, rests₃⟩
  | none =>
      have rests₁ := h.unmoved outcome.2
      refine (((answers .expression).rests rests₁ room).earlier before).bind fun r p₂ reply => ?_
      cases r with
      | none =>
          have rests₂ := rests₁.unmoved reply
          have last : Meets lastEnd p₂ (fun after p' => after = c₁.position ∧ p' = p₂)
              (Failed x .script d c.position) := ⟨rests₂.scanner.ended, rfl⟩
          refine last.bind ?_
          rintro _ _ ⟨rfl, rfl⟩
          refine (restsExpect rests₂ before "\x7d").bind ?_
          rintro _ p₃ ⟨c', closes, -, rests₃⟩
          refine (restsCompleteAt rests₃ _ rfl (Position.leRefl _)).bind ?_
          rintro _ _ ⟨rfl, rfl⟩
          refine (restsComplete rests₃ rfl (Position.leTrans started (nextReaches closes).position)).result ?_
          rintro _ _ ⟨rfl, rfl⟩
          exact ⟨c', .emptyChild textless opens closes, rests₃⟩
      | some n =>
          obtain ⟨c₂, reads, rests₂⟩ := reply
          have reached := reads.goes.reaches
          refine (restsExpect rests₂ (Position.leTrans before reached.position) "\x7d").bind ?_
          rintro _ p₃ ⟨c', closes, -, rests₃⟩
          have ordered := Position.leTrans started (reached.trans (nextReaches closes)).position
          refine (restsComplete rests₃ rfl ordered).result ?_
          rintro _ _ ⟨rfl, rfl⟩
          exact ⟨c', .containerChild textless opens reads closes, rests₃⟩

theorem meetsBracedChild (answers : ∀ k, Answers x (Construct.phrase k) limit (inner k)) (textless : c.text? = none)
    (h : Rests x .jsx d c p) (room : c.rest.length < limit) :
    Meets (bracedChild inner) p (fun r p' => match r with
      | none => Unmoved p p'
      | some n => ∃ c', Reads x (.child n) .jsx d c c' ∧ Rests x .jsx d c' p') (Failed x .jsx d c.position) := by
  refine (meetsConsume h.stands ["\x7b"]).bind fun t p₁ outcome => ?_
  cases t with
  | none => exact outcome.2
  | some t =>
      obtain ⟨o, member, c₁, opens, -, span, rests₁⟩ := outcome
      cases List.mem_singleton.mp member
      have room₁ := Nat.lt_trans (nextAdvances opens).shorter room
      have body : Meets (withMode .script (bracedContents inner t)) p₁
          (fun n p' => ∃ c', Reads x (.child n) .jsx d c c' ∧ Rests x .jsx d c' p')
          (Failed x .jsx d c.position) := by
        refine meetsWithMode rests₁.scanner.mode ?_
        refine (meetsBracedContents answers textless opens span (rests₁.setMode .script) room₁).result ?_
        rintro n p' ⟨c', reads, rests⟩
        exact ⟨c', reads, rests.setMode .jsx⟩
      exact body.bind fun n p₂ read => read

theorem meetsChild (answers : ∀ k, Answers x (Construct.phrase k) limit (inner k))
    (h : Rests x .jsx d c p) (room : c.rest.length < limit) :
    Meets (child inner) p
      (Turn x .jsx d (·.text? = none) (fun c n c' => Reads x (.child n) .jsx d c c') c p)
      (Failed x .jsx d c.position) := by
  refine (meetsTextChild h).bind fun r p₁ outcome => ?_
  cases r with
  | some n =>
      obtain ⟨raw, c', text, rfl, rests⟩ := outcome
      have reads : Reads x _ .jsx d c c' := .text text
      exact ⟨c', reads, reads.goes, rests⟩
  | none =>
      obtain ⟨textless, same⟩ := outcome
      have rests₁ := h.unmoved same
      have some? := meetsMarkup answers rests₁.stands room
      rw [rests₁.scanner.ended] at some?
      refine some?.bind fun r p₂ outcome => ?_
      cases r with
      | some n =>
          obtain ⟨c', reads, rests⟩ := outcome
          have reads : Reads x (.child n) .jsx d c c' := reads.elim (.fragmentChild textless) (.elementChild textless)
          exact ⟨c', reads, reads.goes, rests⟩
      | none =>
          refine (meetsBracedChild answers textless (rests₁.unmoved outcome) room).result fun r p₃ outcome' => ?_
          cases r with
          | none => exact ⟨textless, (same.trans outcome).trans outcome'⟩
          | some n =>
              obtain ⟨c', reads, rests⟩ := outcome'
              exact ⟨c', reads, reads.goes, rests⟩

theorem meetsChildren (answers : ∀ k, Answers x (Construct.phrase k) limit (inner k))
    (h : Rests x .jsx d c p) (room : c.rest.length < limit) (before : q ≤ c.position) :
    Meets (children inner) p (fun r p' => ∃ ns c', r = presentList ns ∧ c.Reaches c' ∧ Rests x .jsx d c' p' ∧
      ∀ c₁ c₂, c'.Takes .jsx "<" c₁ → c₁.Takes .jsx "/" c₂ → Reads x (.children ns) .jsx d c c')
      (Failed x .jsx d q) := by
  have list := @meetsMany Node x .jsx d limit c p (child inner)
    (fun c n c' => Reads x (.child n) .jsx d c c') (fun c => c.text? = none)
    (fun c ns c' => ∀ c₁ c₂, c'.Takes .jsx "<" c₁ → c₁.Takes .jsx "/" c₂ → Reads x (.children ns) .jsx d c c')
    (fun c textless c₁ c₂ closes slash => .noChild textless closes slash)
    (fun c n c₁ ns c' first more c₂ c₃ closes slash => .children first (more c₂ c₃ closes slash))
    (fun c p rests room => meetsChild answers rests room) h room
  refine (list.earlier before).bind fun ns p' ⟨c', reads, reaches, rests⟩ => ?_
  exact ⟨ns, c', rfl, reaches, rests, reads⟩

theorem meetsFragmentBody (answers : ∀ k, Answers x (Construct.phrase k) limit (inner k))
    (h : Stands x .jsx d c p) (room : c.rest.length < limit + 1) :
    Meets (fragmentBody inner) p (fun n p' => ∃ ns c₁ c₂ c₃ c₄ c₅ c', c.Takes .jsx "<" c₁ ∧ c₁.Takes .jsx ">" c₂ ∧
      Reads x (.children ns) .jsx d c₂ c₃ ∧ c₃.Takes .jsx "<" c₄ ∧ c₄.Takes .jsx "/" c₅ ∧
      c₅.Takes .jsx ">" c' ∧ Rests x .jsx d c' p' ∧
      n = ⟨.fragment ⟨.openingFragment, c.spanTo c₂ x.file⟩ ⟨.closingFragment, c₃.spanTo c' x.file⟩
        (presentList ns), c.spanTo c' x.file⟩) (Failed x .jsx d p.scanner.lastEnd) := by
  have behind := h.scanner.behind
  refine (meetsExpect h (Position.leRefl _) "<").bind ?_
  rintro less p₁ ⟨c₁, opens, -, lessSpan, rests₁⟩
  have before₁ := Position.leTrans behind (nextReaches opens).position
  refine (restsExpect rests₁ before₁ ">").bind ?_
  rintro greater p₂ ⟨c₂, opened, greaterSpan, rests₂⟩
  have before₂ := Position.leTrans before₁ (nextReaches opened).position
  have shorter := ((nextAdvances opens).then (nextReaches opened)).shorter
  refine (meetsChildren answers rests₂ (by omega) before₂).bind ?_
  rintro _ p₃ ⟨ns, c₃, rfl, inside, rests₃, reads⟩
  have before₃ := Position.leTrans before₂ inside.position
  refine (restsExpect rests₃ before₃ "<").bind ?_
  rintro closingLess p₄ ⟨c₄, closes, closingSpan, rests₄⟩
  have before₄ := Position.leTrans before₃ (nextReaches closes).position
  refine (restsExpect rests₄ before₄ "/").bind ?_
  rintro _ p₅ ⟨c₅, slash, -, rests₅⟩
  refine (restsExpect rests₅ (Position.leTrans before₄ (nextReaches slash).position) ">").bind ?_
  rintro _ p₆ ⟨c', closed, -, rests₆⟩
  obtain ⟨kind, comments, place⟩ := less
  obtain ⟨kind', comments', place'⟩ := greater
  obtain ⟨kind'', comments'', place''⟩ := closingLess
  simp only at lessSpan greaterSpan closingSpan
  subst lessSpan greaterSpan closingSpan
  have opening := (skipReaches opens).trans (nextReaches opened)
  have ending := (skipReaches closes).trans ((nextReaches slash).trans (nextReaches closed))
  have whole := opening.trans (inside.trans (c₃.reachesSkip.trans ending))
  refine (restsCompleteAt rests₆ c₂.position rfl opening.position).bind ?_
  rintro _ _ ⟨rfl, rfl⟩
  refine (restsComplete rests₆ rfl ending.position).bind ?_
  rintro _ _ ⟨rfl, rfl⟩
  refine (restsComplete rests₆ rfl whole.position).result ?_
  rintro _ _ ⟨rfl, rfl⟩
  exact ⟨ns, c₁, c₂, c₃, c₄, c₅, c', opens, opened, reads c₄ c₅ closes slash, closes, slash, closed, rests₆, rfl⟩

theorem fragmentAnswers (answers : ∀ k, Answers x (Construct.phrase k) limit (inner k)) :
    Answers x .fragment (limit + 1) (fragment inner) := by
  intro m d c p h room
  refine (meetsCurrentIs h "<").bind ?_
  rintro yes p₁ ⟨same, begins⟩
  split
  · rename_i first
    obtain ⟨b, less⟩ := begins.mp first
    refine (meetsPeekIs (h.unmoved same) ">").bind ?_
    rintro yes p₂ ⟨same', follows⟩
    split
    · rename_i second
      obtain ⟨k, b', b'', less', greater⟩ := follows.mp second
      obtain ⟨rfl, rfl⟩ : Token.Kind.punctuator "<" = k ∧ b = b' := by
        rw [less] at less'; simpa using less'
      have both := same.trans same'
      have stands := h.unmoved both
      rw [← both.lastEnd]
      have body : Meets (deeper (withMode .jsx (fragmentBody inner))) p₂ (Found x .fragment m d c)
          (Failed x m d p₂.scanner.lastEnd) := by
        refine meetsDeeper (stands.keeps (Position.leRefl _)) fun space => ?_
        refine meetsWithMode stands.enter.scanner.mode ?_
        have inside := meetsFragmentBody answers (stands.enter.setMode .jsx) room
        rw [show (setMode .jsx { p₂ with depth := p₂.depth + 1 }).scanner.lastEnd = p₂.scanner.lastEnd from
          Scanner.setModeLastEnd .jsx _] at inside
        refine inside.result ?_
        rintro _ p' ⟨ns, c₁, c₂, c₃, c₄, c₅, c', opens, opened, reads, closes, slash, closed, rests, rfl⟩
        exact ⟨c', .fragment less greater space opens opened reads closes slash closed, (rests.setMode m).leave⟩
      exact body.bind fun n p' found => found
    · exact same.trans same'
  · exact same

theorem meetsClosingTag {opening : Node} (h : Rests x .jsx d c p) (before : q ≤ c.position) :
    Meets (closingTag opening) p (fun n p' => ∃ closing c₁ c₂ c₃ c', c.Takes .jsx "<" c₁ ∧ c₁.Takes .jsx "/" c₂ ∧
      ReadsName x.file true closing c₂ c₃ ∧ c₃.Takes .jsx ">" c' ∧ opening.sameName closing = true ∧
      Rests x .jsx d c' p' ∧ n = ⟨.closingElement closing, c.spanTo c' x.file⟩) (Failed x .jsx d q) := by
  refine (restsExpect h before "<").bind ?_
  rintro less p₁ ⟨c₁, closes, span, rests₁⟩
  have before₁ := Position.leTrans before (nextReaches closes).position
  refine (restsExpect rests₁ before₁ "/").bind ?_
  rintro _ p₂ ⟨c₂, slash, -, rests₂⟩
  have before₂ := Position.leTrans before₁ (nextReaches slash).position
  refine (requiredName true rests₂ before₂).bind ?_
  rintro closing p₃ ⟨c₃, name, rests₃⟩
  have before₃ := Position.leTrans before₂ name.advances.reaches.position
  refine (restsExpect rests₃ before₃ ">").bind ?_
  rintro _ p₄ ⟨c', closed, -, rests₄⟩
  obtain ⟨kind, comments, place⟩ := less
  simp only at span
  subst span
  split
  · rename_i same
    have ordered := (skipReaches closes).trans ((nextReaches slash).trans
      (name.advances.reaches.trans (nextReaches closed)))
    refine (restsComplete rests₄ rfl ordered.position).result ?_
    rintro _ _ ⟨rfl, rfl⟩
    exact ⟨closing, c₁, c₂, c₃, c', closes, slash, name, closed, same, rests₄, rfl⟩
  · exact meetsFail (rests₄.keeps (Position.leTrans before₃ (nextReaches closed).position))

theorem meetsElementTail (answers : ∀ k, Answers x (Construct.phrase k) limit (inner k)) {opening : Node}
    (h : Rests x .jsx d c p) (room : c.rest.length < limit) (before : q ≤ c.position) :
    Meets (elementTail inner opening false) p (fun r p' => ∃ ns closing c₁ c₂ c₃ c₄ c',
      r = (presentList ns, some ⟨.closingElement closing, c₁.spanTo c' x.file⟩) ∧
      Reads x (.children ns) .jsx d c c₁ ∧ c₁.Takes .jsx "<" c₂ ∧ c₂.Takes .jsx "/" c₃ ∧
      ReadsName x.file true closing c₃ c₄ ∧ c₄.Takes .jsx ">" c' ∧ opening.sameName closing = true ∧
      Rests x .jsx d c' p') (Failed x .jsx d q) := by
  refine (meetsChildren answers h room before).bind ?_
  rintro _ p₁ ⟨ns, c₁, rfl, inside, rests₁, reads⟩
  refine (meetsClosingTag rests₁ (Position.leTrans before inside.position)).bind ?_
  rintro _ p₂ ⟨closing, c₂, c₃, c₄, c', closes, slash, name, closed, same, rests₂, rfl⟩
  exact ⟨ns, closing, c₁, c₂, c₃, c₄, c', rfl, reads c₂ c₃ closes slash, closes, slash, name, closed, same, rests₂⟩

theorem meetsElementBody (answers : ∀ k, Answers x (Construct.phrase k) limit (inner k)) {b : Cursor}
    (less : c.Takes m "<" b) (notClosing : b.Stops ["/"] m) (space : d < x.config.maxDepth)
    (h : Stands x .jsx (d + 1) c p) (room : c.rest.length < limit + 1) :
    Meets (elementBody inner) p
      (fun n p' => ∃ c', Reads x (.element n) m d c c' ∧ Rests x .jsx (d + 1) c' p')
      (Failed x .jsx (d + 1) p.scanner.lastEnd) := by
  have behind := h.scanner.behind
  refine (meetsExpect h (Position.leRefl _) "<").bind ?_
  rintro token p₁ ⟨c₁, opens, -, span, rests₁⟩
  obtain ⟨kind, comments, place⟩ := token
  simp only at span
  subst span
  have before₁ := Position.leTrans behind (nextReaches opens).position
  refine (requiredName true rests₁ before₁).bind ?_
  rintro own p₂ ⟨c₂, name, rests₂⟩
  have reached₂ := (nextAdvances opens).then name.advances.reaches
  have before₂ := Position.leTrans before₁ name.advances.reaches.position
  have shorter₂ := reached₂.shorter
  refine (meetsAttributes answers rests₂ (by omega) before₂).bind ?_
  rintro _ p₃ ⟨as, c₃, rfl, attributes, rests₃⟩
  have reached₃ : c₂.Reaches c₃ := attributes.goes
  have before₃ := Position.leTrans before₂ reached₃.position
  have started := (skipReaches opens).trans (name.advances.reaches.trans reached₃)
  -- From here on the element closes itself, or its children and its closing tag follow.
  refine (meetsConsume rests₃.stands ["/"]).bind fun t p₄ outcome => ?_
  cases t with
  | some t =>
      obtain ⟨o, member, c₄, slash, -, -, rests₄⟩ := outcome
      cases List.mem_singleton.mp member
      refine (restsExpect rests₄ (Position.leTrans before₃ (nextReaches slash).position) ">").bind ?_
      rintro greater p₅ ⟨c', closed, greaterSpan, rests₅⟩
      obtain ⟨kind', comments', place'⟩ := greater
      simp only at greaterSpan
      subst greaterSpan
      have ordered := (started.trans ((nextReaches slash).trans (nextReaches closed))).position
      have skipped : Meets (elementTail inner own true) p₅ (fun r p' => r = (none, none) ∧ p' = p₅)
          (Failed x .jsx (d + 1) p.scanner.lastEnd) := ⟨rfl, rfl⟩
      refine skipped.bind ?_
      rintro _ _ ⟨rfl, rfl⟩
      refine (restsCompleteAt rests₅ c'.position rfl ordered).bind ?_
      rintro _ _ ⟨rfl, rfl⟩
      refine (restsComplete rests₅ rfl ordered).result ?_
      rintro _ _ ⟨rfl, rfl⟩
      exact ⟨c', .selfClosing less notClosing space opens name attributes slash closed, rests₅⟩
  | none =>
      have rests₄ := rests₃.unmoved outcome.2
      refine (restsExpect rests₄ before₃ ">").bind ?_
      rintro greater p₅ ⟨c₄, opened, greaterSpan, rests₅⟩
      obtain ⟨kind', comments', place'⟩ := greater
      simp only at greaterSpan
      subst greaterSpan
      have opening := started.trans (nextReaches opened)
      have shorter₄ := (reached₂.then (reached₃.trans (nextReaches opened))).shorter
      have before₄ := Position.leTrans before₃ (nextReaches opened).position
      refine (meetsElementTail answers rests₅ (by omega) before₄).bind ?_
      rintro _ p₆ ⟨ns, closing, c₅, c₆, c₇, c₈, c', rfl, inside, closes, slash, closingName, closed, same, rests₆⟩
      have reached : c₄.Reaches c₅ := inside.goes
      have ordered := opening.trans (reached.trans ((nextReaches closes).trans ((nextReaches slash).trans
        (closingName.advances.reaches.trans (nextReaches closed)))))
      refine (restsCompleteAt rests₆ c₄.position rfl opening.position).bind ?_
      rintro _ _ ⟨rfl, rfl⟩
      refine (restsComplete rests₆ rfl ordered.position).result ?_
      rintro _ _ ⟨rfl, rfl⟩
      exact ⟨c', .element less notClosing space opens name attributes opened inside closes slash closingName
        closed same, rests₆⟩

theorem elementAnswers (answers : ∀ k, Answers x (Construct.phrase k) limit (inner k)) :
    Answers x .element (limit + 1) (element inner) := by
  intro m d c p h room
  refine (meetsCurrentIs h "<").bind ?_
  rintro yes p₁ ⟨same, begins⟩
  split
  · rename_i first
    obtain ⟨b, less⟩ := begins.mp first
    refine (meetsPeekIs (h.unmoved same) "/").bind ?_
    rintro yes p₂ ⟨same', follows⟩
    split
    · exact same.trans same'
    · rename_i second
      have notClosing : b.Stops ["/"] m := by
        intro o b' next member
        cases List.mem_singleton.mp member
        exact second (follows.mpr ⟨_, b, b', less, next⟩)
      have both := same.trans same'
      have stands := h.unmoved both
      rw [← both.lastEnd]
      have body : Meets (deeper (withMode .jsx (elementBody inner))) p₂ (Found x .element m d c)
          (Failed x m d p₂.scanner.lastEnd) := by
        refine meetsDeeper (stands.keeps (Position.leRefl _)) fun space => ?_
        refine meetsWithMode stands.enter.scanner.mode ?_
        have inside := meetsElementBody answers less notClosing space (stands.enter.setMode .jsx) room
        rw [show (setMode .jsx { p₂ with depth := p₂.depth + 1 }).scanner.lastEnd = p₂.scanner.lastEnd from
          Scanner.setModeLastEnd .jsx _] at inside
        refine inside.result ?_
        rintro n p' ⟨c', reads, rests⟩
        exact ⟨c', reads, (rests.setMode m).leave⟩
      exact body.bind fun n p' found => found
  · exact same

end Inside

end JsxTree.Grammar
