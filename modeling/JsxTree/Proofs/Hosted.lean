import JsxTree.Proofs.Modes
import JsxTree.Proofs.Shape

/-! Fragments elsewhere. The text of a fragment that is a child or a value is read again as a whole input and in a
container, unless it is glued. -/
namespace JsxTree

namespace Grammar

open Cursor Lexeme JsxTree.Parser

variable {x : Setting} {again : Option String} {m : Mode} {d d' : Nat} {b c c' c₁ c₂ : Cursor} {old new mid : List Char}
  {o : String} {n : Node}

section Closing

theorem takesClosed (takes : c.Takes m o c') : Trivia.opensComment c.skip.rest = false := by
  simp only [Cursor.Takes, Cursor.next?, Option.map_eq_some_iff, Prod.mk.injEq] at takes
  obtain ⟨l, found, kind, -⟩ := takes
  exact nextClosed found (by rw [kind]; rfl)

def Tied (old new : List Char) (c b : Cursor) : Prop := ∃ as, c.rest = as ++ '>' :: old ∧ b.rest = as ++ '>' :: new

theorem Tied.skip (h : Tied old new c b) (closed : Trivia.opensComment c.skip.rest = false)
    (rest : c.skip.rest = mid ++ '>' :: old) : b.skip.rest = mid ++ '>' :: new := by
  obtain ⟨as, front, behind⟩ := h
  have maximal : Trivia.splitPiece c.skip.rest = none := Trivia.splitMaximal c.rest
  have stop : Trivia.splitPiece (mid ++ '>' :: new) = none := by
    rw [rest] at closed maximal
    cases mid with
    | nil => exact splitPieceNone (by decide) (by decide)
    | cons e es => exact Trivia.splitPieceFront (by cases es <;> exact List.prefix_refl _) closed maximal
  have keeps : Avoids (!Trivia.endsLine ·) ('>' :: old) → Avoids (!Trivia.endsLine ·) ('>' :: new) := id
  have split := Trivia.splitAgain keeps stop front rest
  simp only [Cursor.skip, behind, split]

theorem slashApart (slash : c.Takes m "/" c') : Avoids (fun e => e == '/' || e == '*') c'.rest := by
  have closed := takesClosed slash
  have maximal : Trivia.splitPiece c.skip.rest = none := Trivia.splitMaximal c.rest
  obtain ⟨⟨front, -⟩, -⟩ := nextTraces slash
  rw [show c.skip.rest = '/' :: c'.rest from front] at closed maximal
  intro e head
  obtain ⟨es, behind⟩ := List.head?_eq_some_iff.mp head
  rw [behind] at closed maximal
  rw [Bool.or_eq_false_iff, beq_eq_false_iff_ne, beq_eq_false_iff_ne]
  constructor
  · intro slashed
    subst slashed
    cases maximal
  · intro starred
    subst starred
    cases closed

theorem closingText {c₃ c₄ c₅ : Cursor} (closes : c₃.Takes .jsx "<" c₄) (slash : c₄.Takes .jsx "/" c₅)
    (closed : c₅.Takes .jsx ">" c') : ∃ e f es, e ≠ '>' ∧ c₃.rest = (e :: f :: es) ++ '>' :: c'.rest := by
  have less : c₃.skip.rest = '<' :: c₄.rest := (nextTraces closes).1.1
  have mark : c₄.skip.rest = '/' :: c₅.rest := (nextTraces slash).1.1
  have greater : c₅.skip.rest = '>' :: c'.rest := (nextTraces closed).1.1
  obtain ⟨ks, before, -⟩ := c₃.reachesSkip
  obtain ⟨es, between, -⟩ := c₄.reachesSkip
  obtain ⟨ds, behind, -⟩ := c₅.reachesSkip
  have whole : c₃.rest = (ks ++ '<' :: es ++ '/' :: ds) ++ '>' :: c'.rest := by
    rw [before, less, between, mark, behind, greater]
    simp
  generalize ts : ks ++ '<' :: es ++ '/' :: ds = all at whole
  have long : 2 ≤ all.length := by
    rw [← ts]
    simp only [List.length_append, List.length_cons]
    omega
  rcases all with _ | ⟨e, _ | ⟨f, all⟩⟩
  · cases long
  · simp at long
  · refine ⟨e, f, all, ?_, whole⟩
    intro bracket
    subst bracket
    rw [skipFirst (by decide) (by decide) whole, whole] at less
    cases less

theorem closesAnew {c₃ c₄ c₅ : Cursor} (closes : c₃.Takes .jsx "<" c₄) (slash : c₄.Takes .jsx "/" c₅)
    (closed : c₅.Takes .jsx ">" c') (tied : Tied c'.rest new c₃ b) : ∃ b₁ b₂ b₃, b.Takes .jsx "<" b₁ ∧
      b₁.Takes .jsx "/" b₂ ∧ b₂.Takes .jsx ">" b₃ ∧ b₃.rest = new := by
  have less : c₃.skip.rest = '<' :: c₄.rest := (nextTraces closes).1.1
  have mark : c₄.skip.rest = '/' :: c₅.rest := (nextTraces slash).1.1
  have greater : c₅.skip.rest = '>' :: c'.rest := (nextTraces closed).1.1
  obtain ⟨ds, through, -⟩ := c₅.reachesSkip
  obtain ⟨es, through', -⟩ := c₄.reachesSkip
  rw [greater] at through
  rw [mark, through, ← List.cons_append, ← List.append_assoc] at through'
  rw [through', ← List.cons_append] at less
  rw [through, ← List.cons_append] at mark
  obtain ⟨b₁, less', rest₁⟩ := markAt (freeJsx "<" (by decide)) rfl (show b.skip.rest = '<' :: _ from tied.skip (takesClosed closes) less)
  have tied₁ : Tied c'.rest new c₄ b₁ := ⟨_, through', rest₁⟩
  have apart := slashApart slash
  rw [through] at apart
  have continues : Continues ('>' :: c'.rest) ('>' :: new) := fun _ head => head
  obtain ⟨b₂, slash', rest₂⟩ := slashAt (continues.avoids apart) (tied₁.skip (takesClosed slash) mark)
  have tied₂ : Tied c'.rest new c₅ b₂ := ⟨ds, through, rest₂⟩
  have greater' : b₂.skip.rest = [] ++ '>' :: new := tied₂.skip (takesClosed closed) greater
  obtain ⟨b₃, closed', rest₃⟩ := markAt (freeJsx ">" (by decide)) rfl greater'
  exact ⟨b₁, b₂, b₃, less', slash', closed', rest₃⟩

end Closing

theorem fragmentAnew (h : Reads x (.fragment n) m d c c') (script : ∃ c₁, c.Bracketed .script c₁) (again : Option String)
    (shallower : d' ≤ d) {as : List Char} (front : c.rest = as ++ c'.rest) (behind : b.rest = as ++ new) :
    ∃ z b', b'.rest = new ∧ z.Alike n ∧ Reads ⟨x.config, again⟩ (.fragment z) .script d' b b' := by
  cases h with
  | @fragment _ _ ns _ _ _ c₁ c₂ c₃ c₄ c₅ _ _ _ room opens opened inside closes slash closed =>
  obtain ⟨c₂', a, less, greater⟩ := script
  obtain rfl := takesAlike less opens
  obtain rfl := takesAlike greater opened
  obtain ⟨e, f, es, other, closing⟩ := closingText closes slash closed
  obtain ⟨raw, through, -⟩ := (nextReaches opens).trans ((nextReaches opened).trans inside.goes)
  -- The cut is behind the children, so that none of them sees what follows the fragment.
  let cut : Cut := ⟨c₃.rest, (e :: f :: es) ++ '>' :: new, .inr ⟨e, f, other, ⟨_, closing.symm⟩, ⟨_, rfl⟩⟩⟩
  have here : c₃.Before cut := List.suffix_refl _
  have clipped : c.Clipped cut b := by
    refine ⟨raw, through, ?_⟩
    rw [through, closing, List.append_cons _ '>', ← List.append_assoc, List.append_cancel_right_eq] at front
    rw [behind, ← front]
    simp [cut]
  have tied : ∀ {b}, c₃.Clipped cut b → Tied c'.rest new c₃ b := fun clipped =>
    ⟨_, closing, @clippedAlike _ _ _ [] clipped rfl⟩
  obtain ⟨b₁, less', opens', clipped₁⟩ :=
    carriedBoth (w := cut.passage) clipped less opens (((nextReaches opened).trans inside.goes).before here)
  obtain ⟨b₂, greater', opened', clipped₂⟩ :=
    carriedBoth (w := cut.passage) clipped₁ greater opened (inside.goes.before here)
  have faces : (Phrase.children ns).Faces cut.passage .jsx c₃ := by
    intro b clipped
    obtain ⟨b₁, b₂, -, closes', slash', -⟩ := closesAnew closes slash closed (tied clipped)
    exact ⟨b₁, b₂, closes', slash'⟩
  obtain ⟨zs, b₃, clipped₃, alike, inside'⟩ := inside.clipped again (Nat.succ_le_succ shallower) clipped₂ here faces
  obtain ⟨b₄, b₅, b₆, closes', slash', closed', rest⟩ := closesAnew closes slash closed (tied clipped₃)
  exact ⟨_, b₆, rest, Node.alikeFragment (Node.alikeForms.mpr rfl) (Node.alikeForms.mpr rfl) alike,
    .fragment less' greater' (Nat.lt_of_le_of_lt shallower room) opens' opened' inside' closes' slash' closed'⟩

section Containers

variable {as more : List Char}

theorem fragmentExpression (allowed : x.config.jsx = true) (reads : Reads x (.fragment n) .script d c b)
    (closing : Closing b.rest) : Reads x (.expression n) .script d c b := by
  have chain := Reads.chain (.fragmentPrimary allowed reads) (.noSuffix (closing.stops rfl (Text.every (by decide))))
  exact readsLadder (.plainUnary (chainUnsigned chain) chain) (closing.levels rfl)

theorem fragmentRoom (h : Reads x (.fragment n) m d c c') : d < x.config.maxDepth := by
  cases h with
  | fragment _ _ room => exact room

theorem containedAnew (allowed : x.config.jsx = true) (h : Reads x (.fragment n) m d c c')
    (script : ∃ c₁, c.Bracketed .script c₁) (again : Option String) (shallower : d' ≤ d) (front : c.rest = as ++ c'.rest)
    (behind : b.rest = '{' :: (as ++ '}' :: more)) : ∃ b₁ z b₂ b₃, b₃.rest = more ∧ z.Alike n ∧ b.Takes .jsx "\x7b" b₁ ∧
      Reads ⟨x.config, again⟩ (.expression z) .script d' b₁ b₂ ∧ b₂.Takes .script "\x7d" b₃ := by
  obtain ⟨b₁, opens, rest₁⟩ := markHere (freeJsx "\x7b" (by decide)) rfl behind
  obtain ⟨z, b₂, rest₂, alike, reads⟩ := fragmentAnew h script again shallower front rest₁
  obtain ⟨b₃, closes, rest₃⟩ := markHere (freeScript "\x7d" (by decide)) rfl rest₂
  have closing : Closing b₂.rest := rest₂ ▸ closingFirst (by decide) more
  exact ⟨b₁, z, b₂, b₃, rest₃, alike, opens, fragmentExpression allowed reads closing, closes⟩

def hosts (text : String) : List String := ["<>\x7b" ++ text ++ "\x7d</>", "<a b=\x7b" ++ text ++ "\x7d/>"]

def hosted? : Form Node → Option Node
  | .fragment _ _ (some [⟨.container z, _⟩]) => some z
  | .element ⟨.openingElement _ (some [⟨.jsxAttribute _ (some ⟨.container z, _⟩), _⟩]) _, _⟩ _ _ => some z
  | _ => none

def StandsHosted (config : Config) (n : Node) (host : String) : Prop :=
  ∀ file, ∃ tree z, parse host config file = .ok tree ∧ hosted? tree.form = some z ∧ z.Alike n

theorem childHosts {text : String} (allowed : x.config.jsx = true) (h : Reads x (.fragment n) m d c c')
    (script : ∃ c₁, c.Bracketed .script c₁) (inside : 0 < d) (front : c.rest = text.toList ++ c'.rest) :
    StandsHosted x.config n ("<>\x7b" ++ text ++ "\x7d</>") := by
  intro file
  have room : 0 < x.config.maxDepth := Nat.zero_lt_of_lt (fragmentRoom h)
  have start : (Cursor.start ("<>\x7b" ++ text ++ "\x7d</>")).rest =
      '<' :: '>' :: '{' :: (text.toList ++ '}' :: '<' :: '/' :: '>' :: []) := by
    simp [Cursor.start]
  rw [← skipFirst (by decide) (by decide) start] at start
  obtain ⟨b, b', c₁, c₂, less, greater, opens, opened, rest₂⟩ := bracketsAt .script (fun _ => avoidsCons (by decide)) start
  obtain ⟨c₃, z, c₄, c₅, rest₅, alike, brace, reads, braced⟩ := containedAnew allowed h script file inside front rest₂
  obtain ⟨c₆, c₇, c₈, closes, slash, closed, rest₈⟩ := fragmentCloses rest₅
  have child := Reads.containerChild (textlessAt rfl rest₂) brace reads braced
  have children := Reads.children child (.noChild (textlessAt rfl rest₅) closes slash)
  have fragment := Reads.fragment (x := ⟨x.config, file⟩) less greater room opens opened children closes slash closed
  have nothing : c₈.next? .script = none := nextNothing rest₈
  exact ⟨_, z, primaryParses (.fragmentPrimary allowed fragment) nothing, rfl, alike⟩

theorem valueHosts {text : String} (allowed : x.config.jsx = true) (h : Reads x (.fragment n) m d c c')
    (script : ∃ c₁, c.Bracketed .script c₁) (inside : 0 < d) (front : c.rest = text.toList ++ c'.rest) :
    StandsHosted x.config n ("<a b=\x7b" ++ text ++ "\x7d/>") := by
  intro file
  have room : 0 < x.config.maxDepth := Nat.zero_lt_of_lt (fragmentRoom h)
  have start : (Cursor.start ("<a b=\x7b" ++ text ++ "\x7d/>")).rest =
      '<' :: 'a' :: ' ' :: 'b' :: '=' :: '{' :: (text.toList ++ '}' :: '/' :: '>' :: []) := by
    simp [Cursor.start]
  rw [← skipFirst (by decide) (by decide) start] at start
  obtain ⟨c₁, c₂, c₃, c₄, -, -, -, -, -, rest₄, assigns⟩ := @assignmentReads ⟨x.config, file⟩ 0 _ [] _ room start
  obtain ⟨c₅, z, c₆, c₇, rest₇, alike, brace, reads, braced⟩ := containedAnew allowed h script file inside front rest₄
  have solid : Trivia.splitPiece ('/' :: '>' :: []) = none := splitPieceSlash (avoidsCons (by decide))
  have slashed : c₇.skip.rest = '/' :: '>' :: [] := by rw [skipSolid (by rw [rest₇]; exact solid), rest₇]
  obtain ⟨c', ends, element⟩ := assigns (.containerValue brace reads braced) slashed
  exact ⟨_, z, primaryParses (.elementPrimary allowed element) (nextNothing ends), rfl, alike⟩

end Containers

end Grammar

/-- Behind the opening tag of a fragment is what script mode takes into one token with its second bracket. -/
def Node.glued (source : String) (n : Node) : Bool :=
  match n.form with
  | .fragment opening _ _ =>
      (Text.dropBytes opening.span.stop.offset source.toList).any fun rest => rest.head?.any runsOnTag
  | _ => false

inductive Node.Holds : Node → Node → Prop where
  | fragment {opening closing ns n span} (inside : n ∈ ns) : Holds ⟨.fragment opening closing (some ns), span⟩ n
  | element {opening closing ns n span} (inside : n ∈ ns) : Holds ⟨.element opening closing (some ns), span⟩ n
  | value {tag as selfClosing closing children own n span span' span''}
      (inside : ⟨.jsxAttribute own (some n), span⟩ ∈ as) :
      Holds ⟨.element ⟨.openingElement tag (some as) selfClosing, span'⟩ closing children, span''⟩ n

namespace Grammar

open Cursor Lexeme JsxTree.Parser

variable {x : Setting} {source : String} {m : Mode} {d : Nat} {c c' : Cursor} {n a parent : Node} {ns as : List Node}

theorem childRead (h : Reads x (.children ns) .jsx d c c') (inside : n ∈ ns) :
    ∃ b b', c.Reaches b ∧ Reads x (.child n) .jsx d b b' := by
  induction ns generalizing c with
  | nil => cases inside
  | cons first ns ih =>
      cases h with
      | children reads more =>
          rcases List.mem_cons.mp inside with rfl | later
          · exact ⟨c, _, c.reachesRefl, reads⟩
          · obtain ⟨b, b', reaches, reads'⟩ := ih more later
            exact ⟨b, b', reads.goes.reaches.trans reaches, reads'⟩

theorem attributeRead (h : Reads x (.attributes as) .jsx d c c') (inside : a ∈ as) :
    ∃ b b', c.Reaches b ∧ Reads x (.attribute a) .jsx d b b' := by
  induction as generalizing c with
  | nil => cases inside
  | cons first as ih =>
      cases h with
      | attributes reads more =>
          rcases List.mem_cons.mp inside with rfl | later
          · exact ⟨c, _, c.reachesRefl, reads⟩
          · obtain ⟨b, b', reaches, reads'⟩ := ih more later
            exact ⟨b, b', reads.goes.reaches.trans reaches, reads'⟩

theorem valueRead {own : Node} {span : Span} (h : Reads x (.attribute ⟨.jsxAttribute own (some n), span⟩) .jsx d c c') :
    ∃ b b', c.Reaches b ∧ Reads x (.attributeValue n) .jsx d b b' := by
  cases h with
  | valuedAttribute name equals assigned =>
      exact ⟨_, _, name.advances.reaches.trans (nextReaches equals), assigned⟩

theorem elementKind (h : Reads x (.element n) m d c c') : n.kind = .element := by
  cases h <;> rfl

theorem fragmentChildRead (h : Reads x (.child n) .jsx d c c') (fragment : n.kind = .fragment) :
    Reads x (.fragment n) .jsx d c c' := by
  cases h with
  | fragmentChild _ markup => exact markup
  | elementChild _ markup =>
      rw [elementKind markup] at fragment
      cases fragment
  | _ => cases fragment

theorem fragmentValueRead (h : Reads x (.attributeValue n) .jsx d c c') (fragment : n.kind = .fragment) :
    Reads x (.fragment n) .jsx d c c' := by
  cases h with
  | fragmentValue markup => exact markup
  | elementValue markup =>
      rw [elementKind markup] at fragment
      cases fragment
  | _ => cases fragment

theorem fragmentInside (h : Reads x (.fragment n) m d c c') : ∃ opening closing ns c₁ c₂,
    n.form = .fragment opening closing (presentList ns) ∧ c.Reaches c₁ ∧ Reads x (.children ns) .jsx (d + 1) c₁ c₂ := by
  cases h with
  | fragment _ _ _ opens opened inside =>
      exact ⟨_, _, _, _, _, rfl, (nextReaches opens).trans (nextReaches opened), inside⟩

theorem elementInside (h : Reads x (.element n) m d c c') : ∃ tag as selfClosing span closing children c₁ c₂,
    n.form = .element ⟨.openingElement tag (presentList as) selfClosing, span⟩ closing children ∧
      c.Reaches c₁ ∧ Reads x (.attributes as) .jsx (d + 1) c₁ c₂ ∧
      ∀ ns, children = some ns → ∃ c₁ c₂, c.Reaches c₁ ∧ Reads x (.children ns) .jsx (d + 1) c₁ c₂ := by
  cases h with
  | selfClosing _ _ _ opens name attributes =>
      refine ⟨_, _, _, _, _, _, _, _, rfl, (nextReaches opens).trans name.advances.reaches, attributes, ?_⟩
      intro ns same
      cases same
  | element _ _ _ opens name attributes opened inside =>
      have named := (nextReaches opens).trans name.advances.reaches
      refine ⟨_, _, _, _, _, _, _, _, rfl, named, attributes, fun ns same => ?_⟩
      obtain ⟨rfl, -⟩ := presentSome same
      exact ⟨_, _, named.trans (attributes.goes.trans (nextReaches opened)), inside⟩

theorem occursHeld (h : Occurs x source parent) (holds : parent.Holds n) (fragment : n.kind = .fragment) :
    ∃ d c c', 0 < d ∧ c.Within source ∧ x.config.jsx = true ∧ Reads x (.fragment n) .jsx d c c' := by
  cases holds with
  | fragment inside =>
      obtain ⟨m, d, c, c', within, allowed, reads⟩ := h
      obtain ⟨_, _, ns, c₁, c₂, form, reaches, children⟩ := fragmentInside reads
      have same := (Form.fragment.inj form).2.2
      obtain ⟨rfl, -⟩ := presentSome same.symm
      obtain ⟨b, b', farther, child⟩ := childRead children inside
      exact ⟨d + 1, b, b', Nat.succ_pos d, (reaches.trans farther).within within, allowed, fragmentChildRead child fragment⟩
  | element inside =>
      obtain ⟨m, d, c, c', within, allowed, reads⟩ := h
      obtain ⟨_, _, _, _, _, _, _, _, form, -, -, content⟩ := elementInside reads
      have same := (Form.element.inj form).2.2
      obtain ⟨c₁, c₂, reaches, children⟩ := content _ same.symm
      obtain ⟨b, b', farther, child⟩ := childRead children inside
      exact ⟨d + 1, b, b', Nat.succ_pos d, (reaches.trans farther).within within, allowed, fragmentChildRead child fragment⟩
  | value inside =>
      obtain ⟨m, d, c, c', within, allowed, reads⟩ := h
      obtain ⟨_, as, _, _, _, _, c₁, c₂, form, reaches, attributes, -⟩ := elementInside reads
      have opening := congrArg Node.form (Form.element.inj form).1
      have same := (Form.openingElement.inj opening).2.1
      obtain ⟨rfl, -⟩ := presentSome same.symm
      obtain ⟨b, b', farther, holder⟩ := attributeRead attributes inside
      obtain ⟨b₁, b₂, beyond, value⟩ := valueRead holder
      exact ⟨d + 1, b₁, b₂, Nat.succ_pos d, ((reaches.trans farther).trans beyond).within within, allowed,
        fragmentValueRead value fragment⟩

theorem fragmentScripted (h : Reads x (.fragment n) .jsx d c c') (within : c.Within source) (apart : n.glued source = false) :
    ∃ c₁, c.skip.Bracketed .script c₁ := by
  cases h with
  | @fragment _ _ _ _ _ _ c₁ c₂ _ _ _ _ _ _ _ opens opened =>
      have behind := ((nextReaches opens).trans (nextReaches opened)).within within
      simp only [Node.glued, spanTo, withinDrops behind, Option.any_some] at apart
      rw [Takes, ← nextSkip] at opens
      refine ⟨c₂, (bracketedScript ⟨c₁, opens, opened⟩).mpr fun e head => ?_⟩
      rw [head] at apart
      exact apart

theorem fragmentStands (h : Reads x (.fragment n) .jsx d c c') (inside : 0 < d) (within : c.Within source)
    (allowed : x.config.jsx = true) (apart : n.glued source = false) :
    ∃ text, StandsAlone source x.config n text ∧ ∀ host ∈ hosts text, StandsHosted x.config n host := by
  have script := fragmentScripted h within apart
  have edges : n.span.start = c.skip.position ∧ n.span.stop = c'.position := by
    cases h
    exact ⟨rfl, rfl⟩
  have here : Reads x (.fragment n) .jsx d c.skip c' := h.skipped
  obtain ⟨text, piece, slice, raw, front, start⟩ := pieceText within here.goes.reaches edges.1 edges.2
  have whole : (Cursor.start text).rest = raw ++ [] := start
  rw [List.append_nil] at whole
  obtain rfl : text.toList = raw := whole
  refine ⟨text, ⟨piece, slice, fun again => ?_⟩, ?_⟩
  · obtain ⟨z, b', rest, alike, reads⟩ := fragmentAnew here script again (Nat.zero_le d) front start
    exact ⟨z, primaryParses (.fragmentPrimary allowed reads) (nextNothing rest), alike⟩
  · intro host listed
    rcases List.mem_pair.mp listed with rfl | rfl
    · exact childHosts allowed here script inside front
    · exact valueHosts allowed here script inside front

end Grammar

open JsxTree.Grammar JsxTree.Parser

def Node.held (n : Node) : List Node :=
  match n.form with
  | .fragment _ _ (some ns) => ns
  | _ => []

theorem heldHolds {parent n : Node} (inside : n ∈ parent.held) : parent.Holds n := by
  obtain ⟨form, span⟩ := parent
  cases form with
  | fragment opening closing children =>
      cases children with
      | none => cases inside
      | some ns => exact .fragment inside
  | _ => cases inside

theorem facingStart {source : String} {config : Config} {o o' : String}
    (script : (Parser.start source config none).scanner.current.1.map (·.kind) = some (.punctuator o))
    (jsx : ((Parser.start source config none).setMode .jsx).scanner.current.1.map (·.kind) = some (.punctuator o')) :
    Reachable source config none ((Parser.start source config none).setMode .jsx) ∧
      Facing (.start source config none) ((Parser.start source config none).setMode .jsx) := by
  have textless : ∀ {p : Parser} {o : String}, p.scanner.current.1.map (·.kind) = some (.punctuator o) → Textless p := by
    intro p o first t raw current text
    rw [current, Option.map_some, text] at first
    cases first
  exact ⟨.step .start (.scanner (.setMode .jsx _)), ⟨rfl, rfl, rfl, rfl, rfl, rfl, textless script, textless jsx⟩⟩

/-- Which of the two modes a fragment is looked for in makes no difference unless it is glued. One that is a child or a
value is a whole input and the content of a container too. -/
theorem fragmentsAgree (source : String) (config : Config) (file : Option String) :
    (∀ p q, Reachable source config file p → Reachable source config file q → Facing p q →
      (p.scanner.cursor.glued = false → outcome (rule .fragment) p = outcome (rule .fragment) q) ∧
      (p.scanner.cursor.glued = true → outcome (rule .fragment) p = .ok none ∧ outcome (rule .fragment) q ≠ .ok none)) ∧
    ∀ tree parent n, parse source config file = .ok tree → parent ∈ tree.preorder → parent.Holds n → n.kind = .fragment →
      n.glued source = false →
        ∃ text, StandsAlone source config n text ∧ ∀ host ∈ hosts text, StandsHosted config n host := by
  constructor
  · intro p q left right facing
    exact facingSettled left right facing
  · intro tree parent n accepted listed holds fragment apart
    have occurs : Occurs ⟨config, file⟩ source parent := parseSituates accepted parent listed
    obtain ⟨d, c, c', inside, within, allowed, reads⟩ := occursHeld occurs holds fragment
    exact fragmentStands reads inside within allowed apart

theorem fragmentsAgreeNested : ∃ tree n text,
    Facing (.start "<><>x</></>" {} none) ((Parser.start "<><>x</></>" {} none).setMode .jsx) ∧
    outcome (rule .fragment) (.start "<><>x</></>" {} none) =
      outcome (rule .fragment) ((Parser.start "<><>x</></>" {} none).setMode .jsx) ∧
    Facing (.start "<>=x</>" {} none) ((Parser.start "<>=x</>" {} none).setMode .jsx) ∧
    outcome (rule .fragment) (.start "<>=x</>" {} none) = .ok none ∧
    parse "<><>x</></>" {} none = .ok tree ∧ tree.Holds n ∧ n.span.start.offset = 2 ∧
    StandsAlone "<><>x</></>" {} n text ∧ ∀ host ∈ hosts text, StandsHosted {} n host := by
  obtain ⟨tree, accepted, holds⟩ : ∃ tree, parse "<><>x</></>" {} none = .ok tree ∧
      (tree.held.any fun n => n.kind == .fragment && n.span.start.offset == 2 && !n.glued "<><>x</></>") = true :=
    acceptedOf (by decide +kernel)
  obtain ⟨n, inside, here⟩ := List.any_eq_true.mp holds
  rw [Bool.and_eq_true, Bool.and_eq_true, beq_iff_eq, beq_iff_eq, Bool.not_eq_true'] at here
  obtain ⟨⟨kind, offset⟩, apart⟩ := here
  obtain ⟨reachable, facing⟩ := @facingStart "<><>x</></>" {} "<" "<" (by decide +kernel) (by decide +kernel)
  obtain ⟨reachable', facing'⟩ := @facingStart "<>=x</>" {} "<" "<" (by decide +kernel) (by decide +kernel)
  have same := ((fragmentsAgree _ {} none).1 _ _ .start reachable facing).1 (by decide +kernel)
  have hidden := ((fragmentsAgree _ {} none).1 _ _ .start reachable' facing').2 (by decide +kernel)
  obtain ⟨text, alone, hosted⟩ := (fragmentsAgree _ _ none).2 tree tree n accepted tree.preorderItself (heldHolds inside) kind apart
  exact ⟨tree, n, text, facing, same, facing', hidden.1, accepted, heldHolds inside, offset, alone, hosted⟩

theorem fragmentsDisagree :
    (¬∀ (source : String) (p q : Parser), Reachable source {} none p → Reachable source {} none q → Facing p q →
      outcome (rule .fragment) p = outcome (rule .fragment) q) ∧
    ¬∀ (source : String) (tree parent n : Node), parse source {} none = .ok tree → parent ∈ tree.preorder →
      parent.Holds n → n.kind = .fragment → ParsesAlone source {} n := by
  constructor
  · intro all
    obtain ⟨reachable, facing⟩ := @facingStart "<>=x</>" {} "<" "<" (by decide +kernel) (by decide +kernel)
    have same := all _ _ _ .start reachable facing
    have hidden : (outcome (rule .fragment) (.start "<>=x</>" {} none)).toOption.any Option.isNone = true := by
      decide +kernel
    have seen : (outcome (rule .fragment) ((Parser.start "<>=x</>" {} none).setMode .jsx)).toOption.any Option.isNone =
        false := by
      decide +kernel
    rw [same, seen] at hidden
    cases hidden
  · intro all
    obtain ⟨tree, accepted, holds⟩ : ∃ tree, parse "<><>=x</></>" {} none = .ok tree ∧
        (tree.held.any fun n => n.kind == .fragment && n.piece? "<><>=x</></>" == some "<>=x</>".toList) = true :=
      acceptedOf (by decide +kernel)
    obtain ⟨n, inside, here⟩ := List.any_eq_true.mp holds
    rw [Bool.and_eq_true, beq_iff_eq, beq_iff_eq] at here
    obtain ⟨kind, own⟩ := here
    obtain ⟨text, alone⟩ := all _ tree tree n accepted tree.preorderItself (heldHolds inside) kind
    have piece := alone.piece
    rw [own, Option.some_inj, String.toList_inj] at piece
    obtain ⟨z, again, -⟩ := alone.accepted none
    have refused : (parse "<>=x</>" {} none).toOption.isNone = true := by decide +kernel
    rw [piece, again] at refused
    cases refused

end JsxTree
