import JsxTree.Proofs.Clipped
import JsxTree.Proofs.Occurrences

/-! Nodes read from their own text. The piece of the source that a node spans comes to the same node when it is parsed
alone, for every element and for every operation that no parenthesis reaches into. -/
namespace JsxTree

namespace Grammar

open Cursor JsxTree.Parser

variable {x : Setting} {file again : Option String} {ph : Phrase} {m : Mode} {d d' : Nat} {s b b' c c₁ c' : Cursor}
  {cut : Cut} {n z object : Node} {level : Level} {tighter ls : List Level}

section Skipping

theorem skipSpanTo (c c' : Cursor) (file : Option String) : c.skip.spanTo c' file = c.spanTo c' file := by
  rw [Cursor.spanTo, skipSkip, Cursor.spanTo]

def Phrase.Skipped (x : Setting) (m : Mode) (d : Nat) (c c' : Cursor) : Phrase → Prop
  | .primary n => Reads x (.primary n) m d c.skip c'
  | .chain n => Reads x (.chain n) m d c.skip c'
  | .unary n => Reads x (.unary n) m d c.skip c'
  | .ladder ls n => Reads x (.ladder ls n) m d c.skip c'
  | .fragment n => Reads x (.fragment n) m d c.skip c'
  | .element n => Reads x (.element n) m d c.skip c'
  | _ => True

theorem Reads.skipped (h : Reads x ph m d c c') : ph.Skipped x m d c c' := by
  -- Only the first token can tell, and it is read from behind the trivia either way.
  induction h with
  | identifier token =>
      rw [← nextSkip] at token
      rw [← skipSpanTo]
      exact .identifier token
  | literal token value =>
      rw [← nextSkip] at token
      rw [← skipSpanTo]
      exact .literal token value
  | parenthesized opens room inside closes =>
      rw [Cursor.Takes, ← nextSkip] at opens
      exact .parenthesized opens room inside closes
  | fragmentPrimary allowed _ ih => exact .fragmentPrimary allowed ih
  | elementPrimary allowed _ ih => exact .elementPrimary allowed ih
  | chain _ more ih => exact .chain ih more
  | plainUnary stop _ ih =>
      refine .plainUnary (fun p c' next => ?_) ih
      rw [nextSkip] at next
      exact stop p c' next
  | unary operator known room operand =>
      rw [Cursor.Takes, ← nextSkip] at operator
      rw [← skipSpanTo]
      exact .unary operator known room operand
  | bottom _ ih => exact .bottom ih
  | level _ more ih => exact .level ih more
  | fragment less greater room opens opened inside closes slash closed =>
      rw [Cursor.Takes, ← nextSkip] at less opens
      have reads := Reads.fragment less greater room opens opened inside closes slash closed
      rwa [skipSpanTo, skipSpanTo] at reads
  | selfClosing less notClosing room opens name attributes slash closed =>
      rw [Cursor.Takes, ← nextSkip] at less opens
      rw [← skipSpanTo]
      exact .selfClosing less notClosing room opens name attributes slash closed
  | element less notClosing room opens name attributes opened inside closes slash closingName closed same =>
      rw [Cursor.Takes, ← nextSkip] at less opens
      have reads := Reads.element less notClosing room opens name attributes opened inside closes slash closingName
        closed same
      rwa [skipSpanTo, skipSpanTo] at reads
  | _ => trivial

theorem Chained.skipped (h : Chained x d s n c) : Chained x d s.skip n c := by
  induction h with
  | first primary => exact .first primary.skipped
  | member _ dot own ih => exact .member ih dot own
  | computed _ opens room inside closes ih => exact .computed ih opens room inside closes
  | call _ opens room inside closes ih => exact .call ih opens room inside closes

theorem Folded.skipped (h : Folded x level tighter d s n c) : Folded x level tighter d s.skip n c := by
  induction h with
  | first operand => exact .first operand.skipped
  | more _ operator known operand ih => exact .more ih operator known operand

end Skipping

section Cut

theorem Chained.clipped (h : Chained x d s n c) (again : Option String) (shallower : d' ≤ d) (clipped : s.Clipped cut b)
    (later : c.Before cut) : ∃ z b', c.Clipped cut b' ∧ z.Alike n ∧ Chained ⟨x.config, again⟩ d' b z b' := by
  induction h with
  | first primary =>
      obtain ⟨z, b', clipped', alike, primary'⟩ := primary.clipped again shallower clipped later trivial
      exact ⟨z, b', clipped', alike, .first primary'⟩
  | member _ dot own ih =>
      have later₁ := (nextReaches own).before later
      obtain ⟨z, b₀, clipped₀, alike, before⟩ := ih ((nextReaches dot).before later₁)
      obtain ⟨b₁, dot', clipped₁⟩ := nextClipped clipped₀ dot rfl later₁
      obtain ⟨b₂, own', clipped₂⟩ := nextClipped clipped₁ own rfl later
      exact ⟨_, b₂, clipped₂, Node.alikeMember alike (Node.alikeForms.mpr rfl), .member before dot' own'⟩
  | computed _ opens room inside closes ih =>
      have behind := (nextReaches opens).trans (inside.goes.reaches.trans (nextReaches closes))
      obtain ⟨z, b₀, clipped₀, alike, before⟩ := ih (behind.before later)
      have closing := (nextReaches closes).before later
      have alikeWithin := fun {b₁} front =>
        inside.clipped (b := b₁) again (Nat.succ_le_succ shallower) front closing
      obtain ⟨b₁, y, b₂, b₃, clipped₃, alikeInside, opens', inside', closes'⟩ :=
        enclosedAnew (w := cut.passage) opens closes clipped₀ (inside.goes.reaches.before closing) later alikeWithin
      exact ⟨_, b₃, clipped₃, Node.alikeMember alike alikeInside,
        .computed before opens' (Nat.lt_of_le_of_lt shallower room) inside' closes'⟩
  | call _ opens room inside closes ih =>
      have behind := (nextReaches opens).trans (inside.goes.trans (nextReaches closes))
      obtain ⟨z, b₀, clipped₀, alike, before⟩ := ih (behind.before later)
      have closing := (nextReaches closes).before later
      have alikeWithin := fun {b₁} front =>
        inside.clipped (b := b₁) again (Nat.succ_le_succ shallower) front closing
      obtain ⟨b₁, zs, b₂, b₃, clipped₃, alikeInside, opens', inside', closes'⟩ :=
        argumentsAnew (w := cut.passage) opens closes clipped₀ (inside.goes.before closing) later alikeWithin
      exact ⟨_, b₃, clipped₃, Node.alikeCall alike alikeInside,
        .call before opens' (Nat.lt_of_le_of_lt shallower room) inside' closes'⟩

theorem Folded.clipped (h : Folded x level tighter d s n c) (again : Option String) (shallower : d' ≤ d)
    (clipped : s.Clipped cut b) (sees : cut.passage.Sees .script c) :
    ∃ z b', c.Clipped cut b' ∧ z.Alike n ∧ Folded ⟨x.config, again⟩ level tighter d' b z b' := by
  induction h with
  | first operand =>
      obtain ⟨z, b', clipped', alike, operand'⟩ := operand.clipped again shallower clipped (seesBefore sees) sees
      exact ⟨z, b', clipped', alike, .first operand'⟩
  | more _ operator known operand ih =>
      have later := operand.goes.reaches.before (seesBefore sees)
      obtain ⟨l, b₀, clipped₀, alike, before⟩ := ih (Passage.takesSees operator later)
      obtain ⟨b₁, operator', clipped₁⟩ := nextClipped clipped₀ operator rfl later
      obtain ⟨r, b₂, clipped₂, alikeRight, operand'⟩ := operand.clipped again shallower clipped₁ (seesBefore sees) sees
      exact ⟨_, b₂, clipped₂, Node.alikeJoin level.join alike alikeRight, .more before operator' known operand'⟩

end Cut

section Whole

theorem Chained.chain (h : Chained x d s object c) (more : Reads x (.suffixes object n) .script d c c') :
    Reads x (.chain n) .script d s c' := by
  induction h with
  | first primary => exact .chain primary more
  | member _ dot own ih => exact ih (.memberSuffix dot own more)
  | computed _ opens room inside closes ih => exact ih (.computedSuffix opens room inside closes more)
  | call _ opens room inside closes ih => exact ih (.callSuffix opens room inside closes more)

theorem Folded.ladder (h : Folded x level tighter d s object c)
    (more : Reads x (.operands level tighter object n) .script d c c') :
    Reads x (.ladder (level :: tighter) n) .script d s c' := by
  induction h with
  | first operand => exact .level operand more
  | more _ operator known operand ih => exact ih (.operand operator known operand more)

theorem primaryUnsigned (h : Reads x (.primary n) m d c c') : c.Stops prefixOperators m := by
  have unsigned : "(" ∉ prefixOperators ∧ "<" ∉ prefixOperators := by decide
  have other : ∀ o c₁, c.Takes m o c₁ → o ∉ prefixOperators → c.Stops prefixOperators m := by
    intro o c₁ takes absent
    exact stopsOf takes fun p known same => by
      cases same
      exact absent known
  cases h with
  | identifier token => exact stopsOf token fun _ _ same => by cases same
  | literal token value =>
      refine stopsOf token fun p _ same => ?_
      rw [same] at value
      cases value
  | parenthesized opens => exact other _ _ opens unsigned.1
  | fragmentPrimary _ markup =>
      obtain ⟨c₁, less, -⟩ := markup.begins
      exact other _ _ less unsigned.2
  | elementPrimary _ markup =>
      obtain ⟨c₁, less, -⟩ := markup.begins
      exact other _ _ less unsigned.2

theorem chainUnsigned (h : Reads x (.chain n) m d c c') : c.Stops prefixOperators m := by
  cases h with
  | chain first => exact primaryUnsigned first

theorem ladderParses {config : Config} {text : String} (h : Reads ⟨config, again⟩ (.ladder ls z) .script 0 (.start text) b)
    (known : ls <:+ levels) (nothing : b.next? .script = none) : parse text config again = .ok z := by
  obtain ⟨looser, whole⟩ := known
  have ends : ∀ level ∈ looser, b.Stops level.operators .script := fun _ _ => stopsNothing nothing
  have all := readsLooser h ends
  rw [whole] at all
  exact (parseIff text config again z).mpr ⟨b, all, nothing⟩

theorem unaryParses {config : Config} {text : String} (h : Reads ⟨config, again⟩ (.unary z) .script 0 (.start text) b)
    (nothing : b.next? .script = none) : parse text config again = .ok z :=
  ladderParses (.bottom h) (List.nil_suffix) nothing

theorem chainParses {config : Config} {text : String} (h : Reads ⟨config, again⟩ (.chain z) .script 0 (.start text) b)
    (nothing : b.next? .script = none) : parse text config again = .ok z :=
  unaryParses (.plainUnary (chainUnsigned h) h) nothing

theorem primaryParses {config : Config} {text : String}
    (h : Reads ⟨config, again⟩ (.primary z) .script 0 (.start text) b) (nothing : b.next? .script = none) :
    parse text config again = .ok z := chainParses (.chain h (.noSuffix (stopsNothing nothing))) nothing

end Whole

section Alone

variable {source : String}

structure StandsAlone (source : String) (config : Config) (n : Node) (text : String) : Prop where
  piece : n.piece? source = some text.toList
  slice : Text.byteLength source.toList < 2 ^ 32 → n.sliceOf source = text
  accepted : ∀ file, ∃ z, parse text config file = .ok z ∧ z.Alike n

def ParsesAlone (source : String) (config : Config) (n : Node) : Prop := ∃ text, StandsAlone source config n text

theorem pieceSlice {text : String} (piece : n.piece? source = some text.toList) (start : n.span.start ≤ n.span.stop)
    (small : n.span.stop.offset < 2 ^ 32) : n.sliceOf source = text := by
  have startSmall : n.span.start.offset < 2 ^ 32 := Nat.lt_of_le_of_lt start small
  have kept : ∀ k : Nat, k < 2 ^ 32 → k.toUInt32.toNat = k := fun k below => Nat.mod_eq_of_lt below
  simp only [Node.sliceOf, ByteSpan.slice, Span.bytes, kept _ small, kept _ startSmall]
  rw [show Text.slice _ _ _ = _ from piece, Option.map_some, Option.getD_some, String.ofList_toList]

theorem pieceText (within : c.Within source) (reaches : c.skip.Reaches c') (start : n.span.start = c.skip.position)
    (stop : n.span.stop = c'.position) : ∃ text : String, n.piece? source = some text.toList ∧
      (Text.byteLength source.toList < 2 ^ 32 → n.sliceOf source = text) ∧
      c.skip.Clipped (.ending c'.rest) (.start text) := by
  have here := c.reachesSkip.within within
  have there := Text.boundaryLength (reaches.within here).boundary
  have ordered := reaches.position
  obtain ⟨raw, traced⟩ := reaches
  have piece := here.slice traced
  rw [← start, ← stop] at piece ordered
  rw [← stop] at there
  rw [← String.toList_ofList (l := raw)] at piece
  refine ⟨String.ofList raw, piece, fun small => ?_, raw, traced.1, ?_⟩
  · exact pieceSlice piece ordered (Nat.lt_of_le_of_lt there small)
  · simp [Cursor.start, Cut.ending]

theorem pieceAlone {config : Config} (within : c.Within source) (reaches : c.skip.Reaches c')
    (start : n.span.start = c.skip.position) (stop : n.span.stop = c'.position)
    (accepted : ∀ text : String, c.skip.Clipped (.ending c'.rest) (.start text) →
      ∀ file, ∃ z, parse text config file = .ok z ∧ z.Alike n) : ParsesAlone source config n := by
  obtain ⟨text, piece, slice, clipped⟩ := pieceText within reaches start stop
  exact ⟨text, piece, slice, accepted text clipped⟩

theorem lessFollowers : ∀ e ∈ Lexeme.followers .script "<",
    Trivia.isBlank e = false ∧ e ≠ '/' ∧ Lexeme.isIdentifierStart e = false := Text.every (by decide)

theorem lessScript {chained : Bool} (less : c.Takes .jsx "<" c₁) (name : ReadsName file chained n c₁ c') :
    c.Takes .script "<" c₁ := by
  have first : ∃ name c₂, c₁.next? .jsx = some (.jsxIdentifier name, c₂) := by
    cases name with
    | simple own | chain own | namespaced own => exact ⟨_, _, own⟩
  have stop : Lexeme.Avoids (Lexeme.runsOn .script (.punctuator "<")) c₁.rest := by
    intro e head
    obtain ⟨es, front⟩ := List.head?_eq_some_iff.mp head
    refine Bool.eq_false_iff.mpr fun runs => ?_
    obtain ⟨solid, slash, start⟩ := lessFollowers e (by simpa [Lexeme.runsOn] using runs)
    obtain ⟨_, _, own⟩ := first
    simp only [Cursor.next?, Option.map_eq_some_iff, Prod.mk.injEq] at own
    obtain ⟨l, found, kind, -⟩ := own
    obtain ⟨f, fs, text, start', -⟩ := Lexeme.wordOf found (by rw [kind]; rfl)
    rw [skipFirst solid slash front, front] at text
    rw [(List.cons.inj text).1, start'] at start
    cases start
  obtain ⟨c₁', takes, -⟩ := takesAt (c := c) (by decide) stop (nextTraces less).1.1
  obtain rfl := takesAlike takes less
  exact takes

theorem Reads.scripted (h : Reads x (.element n) m d c c') : Reads x (.element n) .script d c c' := by
  cases h with
  | selfClosing less notClosing room opens name attributes slash closed =>
      exact .selfClosing (lessScript opens name) (nameStopsSlash name .script) room opens name attributes slash closed
  | element less notClosing room opens name attributes opened inside closes slash closingName closed same =>
      exact .element (lessScript opens name) (nameStopsSlash name .script) room opens name attributes opened inside
        closes slash closingName closed same

theorem elementAlone (within : c.Within source) (allowed : x.config.jsx = true) (h : Reads x (.element n) m d c c') :
    ParsesAlone source x.config n := by
  have start : n.span.start = c.skip.position ∧ n.span.stop = c'.position := by
    cases h <;> exact ⟨rfl, rfl⟩
  have script := h.scripted.skipped
  apply pieceAlone within script.goes.reaches start.1 start.2
  intro text clipped again
  obtain ⟨z, b', ends, alike, reads⟩ := script.clipped again (Nat.zero_le d) clipped (List.suffix_refl _) trivial
  have nothing := clippedEnd (m := .script) ends rfl rfl
  exact ⟨z, primaryParses (.elementPrimary allowed reads) nothing, alike⟩

theorem unaryAlone (within : c.Within source) (h : Reads x (.unary n) .script d c c')
    (start : n.span.start = c.skip.position) (stop : n.span.stop = c'.position) : ParsesAlone source x.config n := by
  apply pieceAlone within h.skipped.goes.reaches start stop
  intro text clipped again
  obtain ⟨z, b', ends, alike, reads⟩ :=
    h.skipped.clipped again (Nat.zero_le d) clipped (List.suffix_refl _) (.inl ⟨rfl, rfl⟩)
  exact ⟨z, unaryParses reads (clippedEnd ends rfl rfl), alike⟩

theorem Chained.reaches (h : Chained x d s n c) : s.Reaches c := by
  induction h with
  | first primary => exact primary.goes.reaches
  | member _ dot own ih => exact ih.trans ((nextReaches dot).trans (nextReaches own))
  | computed _ opens _ inside closes ih =>
      exact ih.trans ((nextReaches opens).trans (inside.goes.reaches.trans (nextReaches closes)))
  | call _ opens _ inside closes ih =>
      exact ih.trans ((nextReaches opens).trans (inside.goes.trans (nextReaches closes)))

theorem Folded.reaches (h : Folded x level tighter d s n c) : s.Reaches c := by
  induction h with
  | first operand => exact operand.goes.reaches
  | more _ operator _ operand ih => exact ih.trans ((nextReaches operator).trans operand.goes.reaches)

theorem chainAlone (within : s.Within source) (h : Chained x d s n c) (start : n.span.start = s.skip.position)
    (stop : n.span.stop = c.position) : ParsesAlone source x.config n := by
  apply pieceAlone within h.skipped.reaches start stop
  intro text clipped again
  obtain ⟨z, b', ends, alike, chained⟩ := h.skipped.clipped again (Nat.zero_le d) clipped (List.suffix_refl _)
  have nothing := clippedEnd (m := .script) ends rfl rfl
  exact ⟨z, chainParses (chained.chain (.noSuffix (stopsNothing nothing))) nothing, alike⟩

theorem foldAlone (within : s.Within source) (known : level :: tighter <:+ levels)
    (h : Folded x level tighter d s n c) (start : n.span.start = s.skip.position) (stop : n.span.stop = c.position) :
    ParsesAlone source x.config n := by
  apply pieceAlone within h.skipped.reaches start stop
  intro text clipped again
  obtain ⟨z, b', ends, alike, folded⟩ := h.skipped.clipped again (Nat.zero_le d) clipped (.inl ⟨rfl, rfl⟩)
  have nothing := clippedEnd (m := .script) ends rfl rfl
  exact ⟨z, ladderParses (folded.ladder (.noOperand (stopsNothing nothing))) known nothing, alike⟩

def isOperation : Kind → Bool
  | .unary | .binary | .logical | .member | .call => true
  | _ => false

theorem occursElement (h : Occurs x source n) (element : n.kind = .element) : ParsesAlone source x.config n := by
  obtain ⟨form, span⟩ := n
  cases form with
  | element =>
      obtain ⟨m, d, c, c', within, allowed, reads⟩ := h
      exact elementAlone within allowed reads
  | _ => cases element

theorem occursOperation (h : Occurs x source n) (operation : isOperation n.kind = true)
    (upright : n.upright source = true) : ParsesAlone source x.config n := by
  obtain ⟨form, span⟩ := n
  cases form with
  | unary =>
      obtain ⟨d, c, c', within, reads, edged⟩ := h
      exact unaryAlone within reads (edged.start upright) edged.stop
  | binary | logical =>
      obtain ⟨level, tighter, d, c, c', within, known, folded, edged⟩ := h
      exact foldAlone within known folded (edged.start upright) edged.stop
  | member | call =>
      obtain ⟨d, c, c', within, chained, edged⟩ := h
      exact chainAlone within chained (edged.start upright) edged.stop
  | _ => cases operation

end Alone

end Grammar

open Grammar

section Accepted

variable {source : String} {config : Config} {file : Option String} {n m : Node}

/-- An element stands for itself, wherever in the tree it is and whatever the text goes on with. -/
theorem elementParsesAlone (accepted : parse source config file = .ok n) (inside : m ∈ n.preorder)
    (element : m.kind = .element) : ParsesAlone source config m :=
  occursElement (x := ⟨config, file⟩) (parseSituates accepted m inside) element

theorem elementParsesAloneAssigned : ∃ n m, parse "f(<a b=<c/>>=</a>)" {} none = .ok n ∧ m ∈ n.preorder ∧
    m.kind = .element ∧ m.span.start.offset = 7 ∧ ParsesAlone "f(<a b=<c/>>=</a>)" {} m := by
  obtain ⟨n, accepted, holds⟩ : ∃ n, parse "f(<a b=<c/>>=</a>)" {} none = .ok n ∧
      (n.preorder.any fun m => m.kind == .element && m.span.start.offset == 7) = true :=
    Parser.acceptedOf (by decide +kernel)
  obtain ⟨m, inside, here⟩ := List.any_eq_true.mp holds
  rw [Bool.and_eq_true, beq_iff_eq, beq_iff_eq] at here
  exact ⟨n, m, accepted, inside, here.1, here.2, elementParsesAlone accepted inside here.1⟩

/-- So does an operation, as long as what it begins with is in no parentheses: these would not be in its span. -/
theorem operationParsesAlone (accepted : parse source config file = .ok n) (inside : m ∈ n.preorder)
    (operation : isOperation m.kind = true) (upright : m.upright source = true) : ParsesAlone source config m :=
  occursOperation (x := ⟨config, file⟩) (parseSituates accepted m inside) operation upright

theorem operationParsesAloneGrouped : ∃ n m, parse "2 * (a.b(-c) + (d))" {} none = .ok n ∧ m ∈ n.preorder ∧
    m.span.start.offset = 5 ∧ isOperation m.kind = true ∧ m.upright "2 * (a.b(-c) + (d))" = true ∧
    ParsesAlone "2 * (a.b(-c) + (d))" {} m := by
  obtain ⟨n, accepted, holds⟩ : ∃ n, parse "2 * (a.b(-c) + (d))" {} none = .ok n ∧
      (n.preorder.any fun m => m.span.start.offset == 5 && isOperation m.kind && m.upright "2 * (a.b(-c) + (d))") = true :=
    Parser.acceptedOf (by decide +kernel)
  obtain ⟨m, inside, here⟩ := List.any_eq_true.mp holds
  rw [Bool.and_eq_true, Bool.and_eq_true, beq_iff_eq] at here
  obtain ⟨⟨start, operation⟩, upright⟩ := here
  exact ⟨n, m, accepted, inside, start, operation, upright, operationParsesAlone accepted inside operation upright⟩

theorem operationTorn : ¬∀ (source : String) (n m : Node), parse source {} none = .ok n → m ∈ n.preorder →
    isOperation m.kind = true → ParsesAlone source {} m := by
  intro all
  obtain ⟨n, accepted, torn⟩ : ∃ n, parse "(a) + b" {} none = .ok n ∧
      (isOperation n.kind && n.piece? "(a) + b" == some "a) + b".toList) = true := Parser.acceptedOf (by decide +kernel)
  rw [Bool.and_eq_true, beq_iff_eq] at torn
  obtain ⟨text, alone⟩ := all _ n n accepted n.preorderItself torn.1
  have piece := alone.piece
  rw [torn.2, Option.some.injEq, String.toList_inj] at piece
  obtain ⟨z, again, -⟩ := alone.accepted none
  have refused : (parse "a) + b" {} none).toOption.isNone = true := by decide +kernel
  rw [piece, again] at refused
  cases refused

end Accepted

end JsxTree
