import JsxTree.Proofs.Lexemes
import JsxTree.Proofs.Yields

/-! What can be read is read: from a derivation the rules come to its very node, so that a parse gives
a tree exactly when the tree can be read from the whole source. -/
namespace JsxTree.Grammar

open Cursor JsxTree.Parser

variable {x : Setting} {m : Mode} {d b : Nat} {c c₁ c₂ c' : Cursor} {p : Parser} {o : String} {n object : Node}
  {inner : Inner} {bad : ParseError → Parser → Prop}

section Primary

theorem currentKind {k : Token.Kind} (next : c.next? m = some (k, c₁)) (rests : Rests x m d c p) :
    Meets current p (fun r p' => (∃ t, r = some t ∧ t.kind = k) ∧ Unmoved p p') bad := by
  refine (meetsCurrent rests.stands).result fun r p' ⟨same, first⟩ => ⟨?_, same⟩
  cases r with
  | none => rw [next] at first; cases first
  | some t =>
      obtain ⟨c₂, next', -⟩ := first
      rw [next, Option.some.injEq, Prod.mk.injEq] at next'
      exact ⟨t, rfl, next'.1.symm⟩

theorem yieldsIdentifier {s : String} (token : c.next? m = some (.identifier s, c')) :
    Yields x identifier ⟨.identifier s, c.spanTo c' x.file⟩ m d c c' := by
  intro p rests
  refine (meetsIdentifier rests.stands).result fun r p' outcome => ?_
  cases r with
  | none => exact absurd token (outcome.1 s c')
  | some n =>
      obtain ⟨s', c₂, next, rfl, rests'⟩ := outcome
      obtain ⟨rfl, rfl⟩ : s = s' ∧ c' = c₂ := by rw [token] at next; simpa using next
      exact ⟨rfl, rests'⟩

theorem yieldsIdentifierPrimary {s : String} (token : c.next? m = some (.identifier s, c')) :
    Yields x (primary inner) ⟨.identifier s, c.spanTo c' x.file⟩ m d c c' := by
  intro p rests
  refine (currentKind token rests).bind ?_
  rintro _ p₁ ⟨⟨t, rfl, kind⟩, same⟩
  dsimp only
  rw [if_pos (by rw [kind]; rfl)]
  exact yieldsIdentifier token p₁ (rests.unmoved same)

theorem yieldsLiteral {k : Token.Kind} {v : Value} (token : c.next? m = some (k, c')) (value : literalValue? k = some v) :
    Yields x (primary inner) ⟨.literal v k.text, c.spanTo c' x.file⟩ m d c c' := by
  intro p rests
  refine (currentKind token rests).bind ?_
  rintro _ p₁ ⟨⟨t, rfl, kind⟩, same⟩
  have notIdentifier : isIdentifier t.kind ≠ true := by rw [kind]; cases k <;> simp_all [literalValue?, isIdentifier]
  have isLiteral : t.kind.isLiteral = true := by
    rw [kind]; cases k <;> simp_all [literalValue?, Token.Kind.isLiteral]
  dsimp only
  rw [if_neg notIdentifier, if_pos isLiteral]
  refine (meetsAdvance (rests.unmoved same).stands).bind fun r p₂ outcome => ?_
  cases r with
  | none => rw [token] at outcome; cases outcome.1
  | some t' =>
      obtain ⟨c₁, next, span, rests₂⟩ := outcome
      obtain ⟨rfl, rfl⟩ : k = t'.kind ∧ c' = c₁ := by rw [token] at next; simpa using next
      refine (meetsLiteral rests₂ value token span).result ?_
      rintro _ _ ⟨rfl, rfl⟩
      exact ⟨rfl, rests₂⟩

theorem yieldsParenthesized (opens : c.Takes m "(" c₁) (room : d < x.config.maxDepth)
    (inside : Yields x (inner .expression) n m (d + 1) c₁ c₂) (closes : c₂.Takes m ")" c') :
    Yields x (primary inner) n m d c c' := by
  intro p rests
  refine (currentKind opens rests).bind ?_
  rintro _ p₁ ⟨⟨t, rfl, kind⟩, same⟩
  dsimp only
  rw [if_neg (by rw [kind]; decide), if_neg (by rw [kind]; decide), if_pos (Token.isPunctuatorIff.mpr kind)]
  have body : Gives x (parenthesized inner) n m (d + 1) c c' := by
    intro p rests
    refine (takesExpect rests.stands opens).bind ?_
    rintro _ p₁ ⟨-, rests₁⟩
    exact givesClosed inside closes p₁ rests₁
  refine (givesDeeper room body p₁ (rests.unmoved same)).bind ?_
  rintro _ p₂ ⟨rfl, rests₂⟩
  exact ⟨rfl, rests₂⟩

theorem primaryMarkup {good : Option Node → Parser → Prop} (less : c.Takes m "<" c₁) (allowed : x.config.jsx = true)
    (rests : Rests x m d c p) (h : ∀ p', Rests x m d c p' → Meets (do
      match ← fragment inner with
      | some markup => return some markup
      | none => element inner) p' good bad) : Meets (primary inner) p good bad := by
  refine (currentKind less rests).bind ?_
  rintro _ p₁ ⟨⟨t, rfl, kind⟩, same⟩
  have rests₁ := rests.unmoved same
  dsimp only
  rw [if_neg (by rw [kind]; decide), if_neg (by rw [kind]; decide),
    if_neg (by rw [Token.isPunctuatorIff, kind]; decide)]
  have read : Meets get p₁ (fun r p' => r = p₁ ∧ p' = p₁) bad := ⟨rfl, rfl⟩
  refine read.bind ?_
  rintro _ _ ⟨rfl, rfl⟩
  rw [if_pos (by rw [Token.isPunctuatorIff.mpr kind, rests₁.config, allowed]; rfl)]
  exact h _ rests₁

end Primary

section Suffixes

theorem yieldsMember {s : String} (dot : c.Takes m "." c₁) (own : c₁.next? m = some (.identifier s, c₂))
    (ordered : object.span.start ≤ c.position) : Yields x (suffix inner object)
      ⟨.member object ⟨.identifier s, c₁.spanTo c₂ x.file⟩ false, object.spanUpTo c₂ x.file⟩ m d c c₂ := by
  intro p rests
  refine (takesConsume rests.stands dot (List.mem_singleton_self ".")).bind ?_
  rintro _ p₁ ⟨t, rfl, -, -, rests₁⟩
  refine (givesRequired (yieldsIdentifier own) p₁ rests₁).bind ?_
  rintro _ p₂ ⟨rfl, rests₂⟩
  have later := Position.leTrans ordered ((nextReaches dot).trans (nextReaches own)).position
  refine (restsMember rests₂ later).bind ?_
  rintro _ _ ⟨rfl, rfl⟩
  exact ⟨rfl, rests₂⟩

theorem yieldsComputed {property : Node} {c₃ : Cursor} (opens : c.Takes m "[" c₁) (room : d < x.config.maxDepth)
    (inside : Yields x (inner .expression) property m (d + 1) c₁ c₂) (reaches : c₁.Reaches c₂)
    (closes : c₂.Takes m "]" c₃) (ordered : object.span.start ≤ c.position) : Yields x (suffix inner object)
      ⟨.member object property true, object.spanUpTo c₃ x.file⟩ m d c c₃ := by
  intro p rests
  refine Meets.bind (stopsConsume rests.stands (stopsOf opens (by decide))) ?_
  rintro _ p₁ ⟨rfl, same₁⟩
  refine (takesConsume (rests.unmoved same₁).stands opens (List.mem_singleton_self "[")).bind ?_
  rintro _ p₂ ⟨t, rfl, -, -, rests₂⟩
  refine (givesDeeper room (givesClosed inside closes) p₂ rests₂).bind ?_
  rintro _ p₃ ⟨rfl, rests₃⟩
  have later := Position.leTrans ordered ((nextReaches opens).trans (reaches.trans (nextReaches closes))).position
  refine (restsMember rests₃ later).bind ?_
  rintro _ _ ⟨rfl, rfl⟩
  exact ⟨rfl, rests₃⟩

def GivesArguments (x : Setting) (inner : Inner) (ns : List Node) (m : Mode) (d : Nat) (c c' : Cursor) : Prop :=
  ∀ p, Rests x m d c p → Meets (separatedList (inner .expression) [","]) p
    (fun items p' => items.map (·.item) = ns ∧ Rests x m d c' p') Never

theorem yieldsCall {ns : List Node} {c₃ : Cursor} (opens : c.Takes m "(" c₁) (room : d < x.config.maxDepth)
    (inside : GivesArguments x inner ns m (d + 1) c₁ c₂) (reaches : c₁.Reaches c₂) (closes : c₂.Takes m ")" c₃)
    (ordered : object.span.start ≤ c.position) :
    Yields x (suffix inner object) ⟨.call object ns, object.spanUpTo c₃ x.file⟩ m d c c₃ := by
  intro p rests
  refine Meets.bind (stopsConsume rests.stands (stopsOf opens (by decide))) ?_
  rintro _ p₁ ⟨rfl, same₁⟩
  have rests₁ := rests.unmoved same₁
  refine Meets.bind (stopsConsume rests₁.stands (stopsOf opens (by decide))) ?_
  rintro _ p₂ ⟨rfl, same₂⟩
  refine (takesConsume (rests₁.unmoved same₂).stands opens (List.mem_singleton_self "(")).bind ?_
  rintro _ p₃ ⟨t, rfl, -, -, rests₃⟩
  have body : Gives x (Grammar.arguments inner) ns m (d + 1) c₁ c₃ := by
    intro p rests
    refine (inside p rests).bind ?_
    rintro items p₁ ⟨rfl, rests₁⟩
    refine (takesExpect rests₁.stands closes).bind ?_
    rintro _ p₂ ⟨-, rests₂⟩
    exact ⟨rfl, rests₂⟩
  have later := Position.leTrans ordered ((nextReaches opens).trans (reaches.trans (nextReaches closes))).position
  have called : Gives x (call inner object) ⟨.call object ns, object.spanUpTo c₃ x.file⟩ m d c₁ c₃ := by
    intro p rests
    refine (givesDeeper room body p rests).bind ?_
    rintro _ p₁ ⟨rfl, rests₁⟩
    refine meetsOpenNode ((restsComplete rests₁ rfl later).result ?_)
    rintro _ _ ⟨rfl, rfl⟩
    exact ⟨rfl, rests₁⟩
  refine (called p₃ rests₃).bind ?_
  rintro _ p₄ ⟨rfl, rests₄⟩
  exact ⟨rfl, rests₄⟩

theorem passesSuffix (stop : c.Stops [".", "[", "("] m) : Passes x (suffix inner object) m d c := by
  have none : ∀ o ∈ [".", "[", "("], c.Stops [o] m := by
    intro o known o' c' next member
    cases List.mem_singleton.mp member
    exact stop o c' next known
  intro p rests
  refine Meets.bind (stopsConsume rests.stands (none "." (by decide))) ?_
  rintro _ p₁ ⟨rfl, same₁⟩
  have rests₁ := rests.unmoved same₁
  refine Meets.bind (stopsConsume rests₁.stands (none "[" (by decide))) ?_
  rintro _ p₂ ⟨rfl, same₂⟩
  refine Meets.bind (stopsConsume (rests₁.unmoved same₂).stands (none "(" (by decide))) ?_
  rintro _ p₃ ⟨rfl, same₃⟩
  exact ⟨rfl, (same₁.trans same₂).trans same₃⟩

theorem yieldsChain (first : Yields x (primary inner) object m d c c₁) (more : Grows x (suffix inner) object n m d c₁ c') :
    Yields x (callOrMember inner) n m d c c' := by
  intro p rests
  refine (first p rests).bind ?_
  rintro _ p₁ ⟨rfl, rests₁⟩
  refine (more.grow p₁ rests₁).bind ?_
  rintro _ p₂ ⟨rfl, rests₂⟩
  exact ⟨rfl, rests₂⟩

end Suffixes

section Operators

theorem yieldsPlainUnary (stop : c.Stops prefixOperators m) (h : Yields x (callOrMember inner) n m d c c') :
    Yields x (unary inner) n m d c c' := by
  intro p rests
  refine Meets.bind (stopsConsume rests.stands stop) ?_
  rintro _ p₁ ⟨rfl, same⟩
  exact h p₁ (rests.unmoved same)

theorem yieldsUnary (operator : c.Takes m o c₁) (known : o ∈ prefixOperators) (room : d < x.config.maxDepth)
    (operand : Yields x (inner .unary) n m (d + 1) c₁ c') (reaches : c₁.Reaches c') :
    Yields x (unary inner) ⟨.unary o true n, c.spanTo c' x.file⟩ m d c c' := by
  intro p rests
  refine (takesConsume rests.stands operator known).bind ?_
  rintro _ p₁ ⟨t, rfl, kind, span, rests₁⟩
  refine (givesDeeper room operand p₁ rests₁).bind ?_
  rintro _ p₂ ⟨rfl, rests₂⟩
  obtain ⟨_, comments, place⟩ := t
  simp only at kind span
  subst kind span
  refine (restsComplete rests₂ rfl ((skipReaches operator).trans reaches).position).bind ?_
  rintro _ _ ⟨rfl, rfl⟩
  exact ⟨rfl, rests₂⟩

def ladder (inner : Inner) (levels : List Level) : Rule Node :=
  levels.foldr (fun level operand => leftFold operand level.operators level.join) (Grammar.unary inner)

def Folds (x : Setting) (join : Join) (left : Node) (items : List (Separated (Node × Position))) (n : Node) : Prop :=
  ∀ p : Parser, p.scanner.file = x.file →
    Meets (items.foldlM (joinOperand join) left) p (fun r p' => r = n ∧ p' = p) Never

theorem foldsNil (join : Join) (left : Node) : Folds x join left [] left := fun _ _ => ⟨rfl, rfl⟩

theorem foldsCons {join : Join} {left right : Node} {s : Option Token} {items : List (Separated (Node × Position))}
    (text : (s.map Token.text).getD "" = o) (ordered : left.span.start ≤ c₂.position)
    (more : Folds x join ⟨join.form o left right, left.spanUpTo c₂ x.file⟩ items n) :
    Folds x join left (⟨s, right, c₂.position⟩ :: items) n := by
  intro p path
  have joined : Meets (joinOperand join left ⟨s, right, c₂.position⟩) p
      (fun n' p' => n' = ⟨join.form o left right, left.spanUpTo c₂ x.file⟩ ∧ p' = p) Never := by
    refine meetsComplete (joinFormKind _ _ _ _) ordered ⟨?_, rfl⟩
    rw [text, path]
    rfl
  rw [List.foldlM_cons]
  refine joined.bind ?_
  rintro _ _ ⟨rfl, rfl⟩
  exact more _ path

theorem yieldsOperandWithEnd {rule : Rule Node} (h : Yields x rule n m d c c') :
    Yields x (operandWithEnd rule) (n, c'.position) m d c c' := by
  intro p rests
  refine (h p rests).bind ?_
  rintro _ p₁ ⟨rfl, rests₁⟩
  have last : Meets lastEnd p₁ (fun after p' => after = c'.position ∧ p' = p₁) Never :=
    ⟨rests₁.scanner.ended, rfl⟩
  refine last.bind ?_
  rintro _ _ ⟨rfl, rfl⟩
  exact ⟨rfl, rests₁⟩

theorem itemOf {α : Type} {rule : Rule α} {a : α} {ps : List String} (operator : c.Takes m o c₁) (known : o ∈ ps)
    (h : Yields x rule a m d c₁ c₂) (rests : Rests x m d c p) : Meets (separatedItem rule ps) p
      (fun r p' => ∃ s, r = some s ∧ ((s.separator.map Token.text).getD "" = o ∧ s.item = a) ∧ Rests x m d c₂ p') Never := by
  refine (takesConsume rests.stands operator known).bind ?_
  rintro _ p₁ ⟨t, rfl, kind, -, rests₁⟩
  refine (givesRequired h p₁ rests₁).bind ?_
  rintro _ p₂ ⟨rfl, rests₂⟩
  exact ⟨_, rfl, ⟨by simp [Token.text, kind, Token.Kind.text], rfl⟩, rests₂⟩

theorem passesItem {α : Type} {rule : Rule α} {ps : List String} (stop : c.Stops ps m) :
    Passes x (separatedItem rule ps) m d c := by
  intro p rests
  refine Meets.bind (stopsConsume rests.stands stop) ?_
  rintro _ p₁ ⟨rfl, same⟩
  exact ⟨rfl, same⟩

theorem yieldsFold {operand : Rule Node} {level : Level} {left : Node} (first : Yields x operand left m d c c₁)
    (more : Collects x (separatedItem (operandWithEnd operand) level.operators)
      (fun items => Folds x level.join left items n) m d c₁ c') :
    Yields x (leftFold operand level.operators level.join) n m d c c' := by
  intro p rests
  have listed : Meets (separatedList (operandWithEnd operand) level.operators) p
      (fun r p' => (∃ s, ∃ items, r = s :: items ∧ s.item.1 = left ∧ Folds x level.join left items n) ∧
        Rests x m d c' p') Never := by
    refine (yieldsOperandWithEnd first p rests).bind ?_
    rintro _ p₁ ⟨rfl, rests₁⟩
    refine (more.many rests₁).bind ?_
    rintro items p₂ ⟨folds, rests₂⟩
    exact ⟨⟨_, items, rfl, rfl, folds⟩, rests₂⟩
  refine listed.bind ?_
  rintro _ p₁ ⟨⟨s, items, rfl, rfl, folds⟩, rests₁⟩
  refine (folds p₁ rests₁.scanner.path).bind ?_
  rintro _ _ ⟨rfl, rfl⟩
  exact ⟨rfl, rests₁⟩

end Operators

section Inside

theorem innerYields {k : Construct} (room : c.rest.length < b)
    (h : ∀ b, c.rest.length ≤ b → Yields x (construct (within b) k) n m d c c') : Yields x (within b k) n m d c c' := by
  cases b with
  | zero => cases room
  | succ b => exact h b (Nat.le_of_lt_succ room)

theorem innerPasses {k : Construct} (room : c.rest.length < b) (h : ∀ b, Passes x (construct (within b) k) m d c) :
    Passes x (within b k) m d c := by
  cases b with
  | zero => cases room
  | succ b => exact h b

theorem silentPasses {k : Construct} {kind : Token.Kind} (room : c.rest.length < b) (next : c.next? m = some (kind, c₁))
    (other : startsExpression kind = false) : Passes x (within b k) m d c := by
  refine innerPasses room fun b p rests => silentConstruct _ k (standsSilent rests.stands fun k' c' next' => ?_)
  rw [next, Option.some.injEq, Prod.mk.injEq] at next'
  rw [← next'.1]
  exact other

theorem nameAnyMode {s : String} (own : c.next? .jsx = some (.jsxIdentifier s, c')) (m : Mode) :
    ∃ k c₁, c.next? m = some (k, c₁) ∧ ∀ o, k ≠ .punctuator o := by
  simp only [Cursor.next?, Option.map_eq_some_iff, Prod.mk.injEq] at own ⊢
  obtain ⟨l, found, kind, -⟩ := own
  obtain ⟨f, es, text, start, -⟩ := Lexeme.wordOf found (by rw [kind]; rfl)
  refine ⟨_, _, ⟨Lexeme.word m f es, by rw [text]; exact Lexeme.nextWord start, rfl, rfl⟩, fun o same => ?_⟩
  have isWord := Lexeme.wordIsWord m (String.ofList (f :: es.takeWhile (Lexeme.isWordPart m)))
  rw [show Lexeme.wordKind _ _ = _ from same] at isWord
  cases isWord

theorem nameKind {chained : Bool} {file : Option String} (h : ReadsName file chained n c c') (m : Mode) :
    ∃ k c₁, c.next? m = some (k, c₁) ∧ ∀ o, k ≠ .punctuator o := by
  cases h with
  | simple own | chain own | namespaced own => exact nameAnyMode own m

theorem elementNamed (h : Reads x (.element n) m d c c') :
    ∃ c₁ k c₂, c.Takes m "<" c₁ ∧ c₁.next? m = some (k, c₂) ∧ ∀ o, k ≠ .punctuator o := by
  cases h with
  | selfClosing less _ _ opens name | element less _ _ opens name =>
      obtain rfl := takesAlike less opens
      obtain ⟨k, c₂, next, other⟩ := nameKind name m
      exact ⟨_, k, c₂, less, next, other⟩

theorem elementPassesFragment (h : Reads x (.element n) m d c c') : Passes x (fragment inner) m d c := by
  obtain ⟨c₁, k, c₂, less, next, other⟩ := elementNamed h
  exact passesFragment less next (other ">")

end Inside

def Phrase.Runs (x : Setting) (m : Mode) (d : Nat) (c c' : Cursor) (b : Nat) : Phrase → Prop
  | .primary n => c.rest.length ≤ b → Yields x (Grammar.primary (within b)) n m d c c'
  | .suffixes object n => c.rest.length ≤ b → object.span.start ≤ c.position →
      Grows x (suffix (within b)) object n m d c c'
  | .chain n => c.rest.length ≤ b → Yields x (callOrMember (within b)) n m d c c'
  | .unary n => c.rest.length ≤ b → Yields x (Grammar.unary (within b)) n m d c c'
  | .operands level tighter left n => c.rest.length ≤ b → left.span.start ≤ c.position →
      Collects x (separatedItem (operandWithEnd (Grammar.ladder (within b) tighter)) level.operators)
        (fun items => Folds x level.join left items n) m d c c'
  | .ladder levels n => c.rest.length ≤ b → Yields x (Grammar.ladder (within b) levels) n m d c c'
  | .moreArguments ns => c.rest.length ≤ b →
      Collects x (separatedItem (within b .expression) [","]) (fun items => items.map (·.item) = ns) m d c c'
  | .arguments ns => c.rest.length < b → GivesArguments x (within b) ns m d c c'
  | .fragment n => c.rest.length ≤ b → Yields x (Grammar.fragment (within b)) n m d c c'
  | .element n => c.rest.length ≤ b → Yields x (Grammar.element (within b)) n m d c c'
  | .attributeValue n => c.rest.length < b → Gives x (Grammar.attributeValue (within b)) n m d c c'
  | .attribute n => c.rest.length < b → Yields x (attribute? (within b)) n m d c c'
  | .attributes ns => c.rest.length < b → Collects x (attribute? (within b)) (· = ns) m d c c'
  | .child n => c.rest.length < b → Yields x (Grammar.child (within b)) n m d c c'
  | .children ns => c.rest.length < b → Collects x (Grammar.child (within b)) (· = ns) m d c c'

theorem Reads.runs {ph : Phrase} (h : Reads x ph m d c c') (b : Nat) : ph.Runs x m d c c' b := by
  -- The budget falls by one where a construct is read inside another, and so does the text left: what is left pays for it.
  induction h generalizing b with
  | identifier token => exact fun _ => yieldsIdentifierPrimary token
  | literal token value => exact fun _ => yieldsLiteral token value
  | parenthesized opens room _ closes ih =>
      intro enough
      have shorter := (nextAdvances opens).shorter
      exact yieldsParenthesized opens room (innerYields (by omega) ih) closes
  | fragmentPrimary allowed markup ih =>
      intro enough p rests
      obtain ⟨c₁, less, -⟩ := markup.begins
      refine primaryMarkup less allowed rests fun p rests => ?_
      refine (ih b enough p rests).bind ?_
      rintro _ p₁ ⟨rfl, rests₁⟩
      exact ⟨rfl, rests₁⟩
  | elementPrimary allowed markup ih =>
      intro enough p rests
      obtain ⟨c₁, less, -⟩ := markup.begins
      refine primaryMarkup less allowed rests fun p rests => ?_
      refine Meets.bind (elementPassesFragment markup p rests) ?_
      rintro _ p₁ ⟨rfl, same⟩
      exact ih b enough p₁ (rests.unmoved same)
  | noSuffix stop => exact fun _ _ => growsStop (passesSuffix stop)
  | memberSuffix dot own _ ih =>
      intro enough ordered
      have advances := (nextAdvances dot).then (nextReaches own)
      have shorter := advances.shorter
      exact growsMore advances (yieldsMember dot own ordered)
        (ih b (by omega) (Position.leTrans ordered advances.reaches.position))
  | computedSuffix opens room inside closes _ ih ihMore =>
      intro enough ordered
      have first := nextAdvances opens
      have advances := first.then ((Reads.goes inside).reaches.trans (nextReaches closes))
      have shorter := first.shorter
      have shorter' := advances.shorter
      exact growsMore advances
        (yieldsComputed opens room (innerYields (by omega) ih) (Reads.goes inside).reaches closes ordered)
        (ihMore b (by omega) (Position.leTrans ordered advances.reaches.position))
  | callSuffix opens room inside closes _ ih ihMore =>
      intro enough ordered
      have first := nextAdvances opens
      have reaches : Cursor.Reaches _ _ := Reads.goes inside
      have advances := first.then (reaches.trans (nextReaches closes))
      have shorter := first.shorter
      have shorter' := advances.shorter
      exact growsMore advances (yieldsCall opens room (ih b (by omega)) reaches closes ordered)
        (ihMore b (by omega) (Position.leTrans ordered advances.reaches.position))
  | chain first _ ih ihMore =>
      intro enough
      have shorter := (Reads.goes first).shorter
      exact yieldsChain (ih b enough) (ihMore b (by omega) (Laid.ordered (Reads.laid first)))
  | plainUnary stop _ ih => exact fun enough => yieldsPlainUnary stop (ih b enough)
  | unary operator known room operand ih =>
      intro enough
      have shorter := (nextAdvances operator).shorter
      exact yieldsUnary operator known room (innerYields (by omega) ih) (Reads.goes operand).reaches
  | noOperand stop => exact fun _ _ => collectsStop (passesItem stop) (foldsNil _ _)
  | operand operator known operand _ ih ihMore =>
      intro enough ordered
      have first := nextAdvances operator
      have advances := first.then (Reads.goes operand).reaches
      have shorter := first.shorter
      have shorter' := advances.shorter
      have later := Position.leTrans ordered advances.reaches.position
      refine collectsMore advances
        (fun p rests => itemOf operator known (yieldsOperandWithEnd (ih b (by omega))) rests) ?_ (ihMore b (by omega) later)
      rintro ⟨s, right, stop⟩ items ⟨text, same⟩ folds
      cases same
      exact foldsCons text later folds
  | bottom _ ih => exact fun enough => ih b enough
  | level first _ ih ihMore =>
      intro enough
      have shorter := (Reads.goes first).shorter
      exact yieldsFold (ih b enough) (ihMore b (by omega) (Laid.ordered (Reads.laid first)))
  | noMoreArguments stop => exact fun _ => collectsStop (passesItem stop) rfl
  | moreArguments comma item _ ih ihMore =>
      intro enough
      have first := nextAdvances comma
      have advances := first.then (Reads.goes item).reaches
      have shorter := first.shorter
      have shorter' := advances.shorter
      refine collectsMore advances (fun p rests => itemOf comma (List.mem_singleton_self ",")
        (innerYields (by omega) ih) rests) ?_ (ihMore b (by omega))
      rintro ⟨s, n⟩ items ⟨-, same⟩ rfl
      cases same
      rfl
  | noArguments closes =>
      intro room p rests
      refine Meets.bind (silentPasses room closes rfl p rests) ?_
      rintro _ p₁ ⟨rfl, same⟩
      exact ⟨rfl, rests.unmoved same⟩
  | arguments first _ ih ihMore =>
      intro room p rests
      have shorter := (Reads.goes first).shorter
      refine (innerYields (k := .expression) room ih p rests).bind ?_
      rintro _ p₁ ⟨rfl, rests₁⟩
      refine ((ihMore b (by omega)).many rests₁).bind ?_
      rintro items p₂ ⟨rfl, rests₂⟩
      exact ⟨rfl, rests₂⟩
  | fragment less greater room opens opened inside closes slash closed ih =>
      intro enough
      have shorter := ((nextAdvances opens).then (nextReaches opened)).shorter
      exact yieldsFragment less greater room opens opened (ih b (by omega)) (Reads.goes inside) closes slash closed
  | selfClosing less notClosing room opens name attributes slash closed ih =>
      intro enough
      have shorter := ((nextAdvances opens).then name.advances.reaches).shorter
      obtain rfl := takesAlike less opens
      obtain ⟨k, b', next, other⟩ := nameKind name _
      exact yieldsElement less next (other "/") room
        (givesSelfClosing opens name (ih b (by omega)) (Reads.goes attributes) slash closed)
  | element less notClosing room opens name attributes opened inside closes slash closingName closed same ih ihInside =>
      intro enough
      have second := (nextAdvances opens).then name.advances.reaches
      have shorter := second.shorter
      have third := (second.then (Cursor.Reaches.trans (Reads.goes attributes) (nextReaches opened))).shorter
      obtain rfl := takesAlike less opens
      obtain ⟨k, b', next, other⟩ := nameKind name _
      have ends := (nextReaches closes).trans ((nextReaches slash).trans
        (closingName.advances.reaches.trans (nextReaches closed)))
      exact yieldsElement less next (other "/") room
        (givesElement opens name (ih b (by omega)) (Reads.goes attributes) opened (ihInside b (by omega))
          (Reads.goes inside) (givesClosingTag closes slash closingName closed same) ends)
  | stringValue token => exact fun _ => givesStringValue token
  | containerValue opens inside closes ih =>
      intro room
      have shorter := (nextAdvances opens).shorter
      exact givesContainerValue opens (innerYields (by omega) ih) (Reads.goes inside).reaches closes
  | fragmentValue markup ih =>
      intro room
      obtain ⟨c₁, less, -⟩ := markup.begins
      exact givesMarkupValue less (yieldsMarkupFragment (innerYields room ih))
  | elementValue markup ih =>
      intro room
      obtain ⟨c₁, less, -⟩ := markup.begins
      exact givesMarkupValue less (yieldsMarkupElement
        (innerPasses room fun _ => elementPassesFragment markup) (innerYields room ih))
  | spreadAttribute opens dots inside closes ih =>
      intro room
      have shorter := ((nextAdvances opens).then (nextReaches dots)).shorter
      exact yieldsSpreadAttribute opens dots (innerYields (by omega) ih) (Reads.goes inside).reaches closes
  | plainAttribute name stop => exact fun _ => yieldsPlainAttribute name stop
  | valuedAttribute name equals assigned ih =>
      intro room
      have shorter := (name.advances.then (nextReaches equals)).shorter
      exact yieldsValuedAttribute name equals (ih b (by omega)) (Reads.goes assigned).reaches
  | noAttribute stop nameless => exact fun _ => collectsStop (passesAttribute ⟨stop, nameless⟩) rfl
  | attributes first _ ih ihMore | children first _ ih ihMore =>
      intro room
      have advances : Cursor.Advances _ _ := Reads.goes first
      have shorter := advances.shorter
      exact collectsNode advances (ih b room) (ihMore b (by omega))
  | text run => exact fun _ => yieldsText run
  | fragmentChild textless _ ih =>
      intro room
      exact yieldsMarkupChild textless (yieldsMarkupFragment (innerYields room ih))
  | elementChild textless markup ih =>
      intro room
      exact yieldsMarkupChild textless (yieldsMarkupElement
        (innerPasses room fun _ => elementPassesFragment markup) (innerYields room ih))
  | emptyChild textless opens closes =>
      intro room
      have shorter := (nextAdvances opens).shorter
      exact yieldsBracedChild textless opens
        (passesMarkup (silentPasses room opens rfl) (silentPasses room opens rfl))
        fun brace span => givesEmptyContainer opens span (silentPasses (by omega) closes rfl) closes
  | @containerChild _ _ _ c₁ _ _ textless opens inside closes ih =>
      intro room
      have shorter := (nextAdvances opens).shorter
      obtain ⟨k, _, next, starts, -⟩ := inside.begins
      have first : c₁.Stops ["..."] .script := by
        refine stopsOf next fun o member kind => ?_
        cases List.mem_singleton.mp member
        rw [kind] at starts
        cases starts
      exact yieldsBracedChild textless opens
        (passesMarkup (silentPasses room opens rfl) (silentPasses room opens rfl))
        fun brace span => givesContainer opens span first (innerYields (by omega) ih) (Reads.goes inside).reaches closes
  | spreadChild textless opens dots inside closes ih =>
      intro room
      have shorter := ((nextAdvances opens).then (nextReaches dots)).shorter
      exact yieldsBracedChild textless opens
        (passesMarkup (silentPasses room opens rfl) (silentPasses room opens rfl))
        fun brace span => givesSpreadChild opens span dots (innerYields (by omega) ih) (Reads.goes inside).reaches closes
  | noChild textless closes slash =>
      intro room
      refine collectsStop (passesChild textless (passesMarkup ?_ ?_) (stopsOf closes (by decide))) rfl
      · exact innerPasses room fun _ => passesFragment closes slash (by decide)
      · exact innerPasses room fun _ => passesElement closes slash

theorem startRests (source : String) (config : Config) (file : Option String) :
    Rests ⟨config, file⟩ .script 0 (.start source) (Parser.start source config file) :=
  ⟨rfl, rfl, ⟨(startStands source config file).scanner, rfl⟩⟩

/-- A parse gives the trees that can be read from the whole source, and no others. -/
theorem parseIff (source : String) (config : Config) (file : Option String) (n : Node) :
    parse source config file = .ok n ↔
      ∃ c', Reads ⟨config, file⟩ (.expression n) .script 0 (.start source) c' ∧ c'.next? .script = none := by
  constructor
  · intro parsed
    have reads := parseReads source config file
    rw [parsed] at reads
    exact reads
  · rintro ⟨c', reads, ended⟩
    have first : Gives ⟨config, file⟩ (required (rule .expression)) n .script 0 (.start source) c' := by
      refine givesRequired fun p rests => ?_
      have run := innerYields (k := .expression) (b := p.scanner.cursor.rest.length + 1)
        (by rw [rests.scanner.cursor]; exact Nat.lt_succ_self _) reads.runs p rests
      unfold Meets rule at *
      exact run
    have whole : Meets wholeExpression (Parser.start source config file) (fun r _ => r = n) Never := by
      refine (first _ (startRests source config file)).bind ?_
      rintro _ p₁ ⟨rfl, rests₁⟩
      refine (restsAtEnd rests₁).bind fun yes p₂ ⟨_, last⟩ => ?_
      rw [if_pos (last.mpr ended)]
      exact rfl
    unfold Meets at whole
    unfold parse
    cases ran : wholeExpression (Parser.start source config file) with
    | ok r p' => rw [ran] at whole; rw [whole]
    | error e p' =>
        rw [ran] at whole
        cases e <;> exact whole.elim

end JsxTree.Grammar
