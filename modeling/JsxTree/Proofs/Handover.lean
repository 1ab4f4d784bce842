import JsxTree.Proofs.Modes

/-! Where JSX mode takes over. A construct is recognized in the mode of the caller and read in JSX mode, with nothing left of
what was read ahead. Both modes go past the same trivia, and JSX mode takes the tokens that opened the construct again. -/
namespace JsxTree

open JsxTree.Parser

namespace Scanner

variable {file : Option String} {m : Mode} {c b c' : Cursor} {s : Scanner} {t : Token} {o o' : String}

theorem Stands.peeked (h : Stands file m c s) (peeked : s.peek.1 = some t) :
    ∃ k b c', c.next? m = some (k, b) ∧ b.next? m = some (t.kind, c') ∧ t.span = b.spanTo c' file := by
  have ahead := (h.foresees (fillForesees 2 s)).ahead
  simp only [Scanner.peek] at peeked
  obtain ⟨a', second, rfl⟩ := Option.map_eq_some_iff.mp peeked
  cases tokens : (s.fill 2).ahead with
  | nil => simp [tokens] at second
  | cons a as =>
      rw [tokens] at ahead second
      cases as with
      | nil => cases second
      | cons b bs =>
          cases second
          exact ⟨_, _, _, ahead.1.1, ahead.2.1.1, ahead.2.1.2⟩

theorem Stands.currentTakes (h : Stands file m c s) (current : s.current.1 = some t) (fits : t.isPunctuator o = true) :
    ∃ b, c.Takes m o b ∧ t.span = c.spanTo b file := by
  have first := h.current
  rw [current] at first
  obtain ⟨b, next, span⟩ := first
  exact ⟨b, next.trans (by rw [Token.isPunctuatorIff.mp fits]), span⟩

theorem Stands.peekTakes (h : Stands file m c s) (less : c.Takes m o b) (peeked : s.peek.1 = some t)
    (fits : t.isPunctuator o' = true) : ∃ c', b.Takes m o' c' ∧ t.span = b.spanTo c' file := by
  obtain ⟨k, b', c', first, second, span⟩ := h.peeked peeked
  obtain ⟨-, rfl⟩ : .punctuator o = k ∧ b = b' := by rw [less] at first; simpa using first
  rw [Token.isPunctuatorIff.mp fits] at second
  exact ⟨c', second, span⟩

theorem Stands.takesCurrent (h : Stands file m c s) (takes : c.Takes m o b) :
    ∃ t, s.current.1 = some t ∧ t.isPunctuator o = true ∧ t.span = c.spanTo b file := by
  have first := h.current
  cases current : s.current.1 with
  | none =>
      rw [current, takes] at first
      cases first
  | some t =>
      rw [current] at first
      obtain ⟨b', next, span⟩ := first
      obtain ⟨kind, rfl⟩ : .punctuator o = t.kind ∧ b = b' := by rw [takes] at next; simpa using next
      exact ⟨t, rfl, Token.isPunctuatorIff.mpr kind.symm, span⟩

theorem Stands.takesPeek (h : Stands file m c s) (less : c.Takes m o b) (greater : b.Takes m o' c') :
    ∃ t, s.peek.1 = some t ∧ t.isPunctuator o' = true ∧ t.span = b.spanTo c' file := by
  have kinds := h.peek
  rw [less, Option.bind_some] at kinds
  obtain ⟨t, peeked, kind⟩ := Option.map_eq_some_iff.mp (kinds.trans (congrArg (Option.map Prod.fst) greater))
  have fits := Token.isPunctuatorIff.mpr kind
  obtain ⟨c'', again, span⟩ := h.peekTakes less peeked fits
  obtain rfl := Grammar.takesAlike greater again
  exact ⟨t, peeked, fits, span⟩

theorem Stands.currentStart (h : Stands file m c s) :
    s.current.1.map (·.span.start) = if c.skip.rest = [] then none else some c.skip.position := by
  have first := h.current
  cases current : s.current.1 with
  | none =>
      rw [current] at first
      rw [if_pos (Cursor.nextNone.mp first)]
      rfl
  | some t =>
      rw [current] at first
      obtain ⟨b, next, span⟩ := first
      have more : c.skip.rest ≠ [] := fun nothing => by
        rw [Cursor.nextNone.mpr nothing] at next
        cases next
      rw [if_neg more, Option.map_some, span]
      rfl

structure HandsOver (s : Scanner) : Prop where
  start : ∀ m m', (s.setMode m).current.1.map (·.span.start) = (s.setMode m').current.1.map (·.span.start)
  ended : ∀ m m', (s.setMode m).atEnd.1 = (s.setMode m').atEnd.1
  less : ∀ less, (s.setMode .script).current.1 = some less → less.isPunctuator "<" = true →
    ∃ less', (s.setMode .jsx).current.1 = some less' ∧ less'.isPunctuator "<" = true ∧ less'.span = less.span ∧
      ∀ greater, (s.setMode .script).peek.1 = some greater → greater.isPunctuator ">" = true →
        ∃ greater', (s.setMode .jsx).peek.1 = some greater' ∧ greater'.isPunctuator ">" = true ∧
          greater'.span = greater.span

theorem Stands.handsOver (h : Stands file m c s) : s.HandsOver := by
  have start (m' : Mode) := (h.setMode m').currentStart
  refine ⟨fun m₁ m₂ => (start m₁).trans (start m₂).symm, fun m₁ m₂ => ?_, fun less first fits => ?_⟩
  · have nothing (m' : Mode) : (s.setMode m').atEnd.1 = ((s.setMode m').current.1.map (·.span.start)).isNone := by
      simp only [Scanner.atEnd, Option.isNone_map]
    rw [nothing, nothing, start, start]
  · -- Both modes stand at one cursor; from there on it is a matter of which tokens they take.
    have script := h.setMode .script
    have jsx := h.setMode .jsx
    obtain ⟨b, takes, span⟩ := script.currentTakes first fits
    have takes' := Grammar.lessJsx takes
    obtain ⟨less', first', fits', span'⟩ := jsx.takesCurrent takes'
    refine ⟨less', first', fits', span'.trans span.symm, fun greater second closes => ?_⟩
    obtain ⟨c', closing, span⟩ := script.peekTakes takes second closes
    obtain ⟨greater', second', closes', span'⟩ := jsx.takesPeek takes' (Grammar.greaterJsx closing)
    exact ⟨greater', second', closes', span'.trans span.symm⟩

end Scanner

namespace Grammar

variable {α : Type} {x : Setting} {m : Mode} {d : Nat} {c c' : Cursor} {p p' q : Parser} {next : Parse Bool} {body : Parse α}

def opens (next : Parse Bool) : Parse Bool := do
  if ← currentIs "<" then next else return false

def fragmentBegins : Parse Bool := opens (peekIs ">")

def elementBegins : Parse Bool := opens (do return !(← peekIs "/"))

def guarded (begins : Parse Bool) (body : Parse α) : Parse (Option α) := do
  if ← begins then return some (← deeper (withMode .jsx body)) else return none

def inside? (begins : Parse Bool) (p : Parser) : Option Parser :=
  match begins p with
  | .ok true p' =>
      if p'.depth < p'.config.maxDepth then some (({ p' with depth := p'.depth + 1 } : Parser).setMode .jsx) else none
  | _ => none

theorem insideIff : inside? next p = some q ↔ ∃ p', next p = .ok true p' ∧ p'.depth < p'.config.maxDepth ∧
    q = ({ p' with depth := p'.depth + 1 } : Parser).setMode .jsx := by
  unfold inside?
  constructor
  · intro entered
    split at entered
    · rename_i p' ran
      split at entered
      · rename_i room
        exact ⟨p', ran, room, (Option.some.inj entered).symm⟩
      · cases entered
    · cases entered
  · rintro ⟨p', ran, room, rfl⟩
    rw [ran]
    exact if_pos room

theorem fragmentGuarded (inner : Inner) : fragment inner = guarded fragmentBegins (fragmentBody inner) := by
  funext p
  simp only [fragment, guarded, fragmentBegins, opens, bind, EStateM.bind]
  cases currentIs "<" p with
  | ok less p' => cases less <;> rfl
  | error => rfl

theorem elementGuarded (inner : Inner) : element inner = guarded elementBegins (elementBody inner) := by
  funext p
  simp only [element, guarded, elementBegins, opens, bind, EStateM.bind]
  cases currentIs "<" p with
  | ok less p' =>
      cases less with
      | false => rfl
      | true =>
          simp only [if_true, EStateM.bind]
          cases peekIs "/" p' with
          | ok slash p'' => cases slash <;> rfl
          | error => rfl
  | error => rfl

theorem enteredOutcome (enters : inside? next p = some q) (body : Parse α) :
    outcome (guarded next body) p = (outcome body q).map some := by
  obtain ⟨p', ran, room, rfl⟩ := insideIff.mp enters
  rw [← outcomeMode, ← outcomeRoom room, ← outcomeSome]
  simp only [outcome, guarded, bind, EStateM.bind, ran, if_true]

theorem openedTextless (begun : opens next p = .ok true p') : Textless p := by
  intro t raw current kind
  have misfit : t.isPunctuator "<" = false := by
    rw [Token.isPunctuator, kind]
    rfl
  have first : currentIs "<" p = .ok false { p with scanner := p.scanner.current.2 } := by
    simp only [currentIs, bind, EStateM.bind, Parser.current, scan, current, Option.any_some, misfit]
    rfl
  simp only [opens, bind, EStateM.bind, first] at begun
  cases begun

theorem openedTakes (h : Stands x m d c p) (begun : opens next p = .ok true p') :
    ∃ b p₁, c.Takes m "<" b ∧ Unmoved p p₁ ∧ next p₁ = .ok true p' := by
  obtain ⟨less, p₁, ran, same, lessIff⟩ := meetsRan (meetsCurrentIs h "<")
  simp only [opens, bind, EStateM.bind, ran] at begun
  cases less with
  | false => cases begun
  | true =>
      obtain ⟨b, takes⟩ := lessIff.mp rfl
      exact ⟨b, p₁, takes, same, begun⟩

theorem fragmentEntered (h : Stands x m d c p) (enters : inside? fragmentBegins p = some q) :
    Stands x .jsx (d + 1) c q ∧ ∃ c', c.Bracketed .jsx c' := by
  obtain ⟨p', begun, -, rfl⟩ := insideIff.mp enters
  obtain ⟨b, p₁, less, same, peeked⟩ := openedTakes h begun
  obtain ⟨greater, p₂, ran, same', greaterIff⟩ := meetsRan (meetsPeekIs (h.unmoved same) ">")
  rw [peeked] at ran
  cases ran
  obtain ⟨k, b', c', next, greater⟩ := greaterIff.mp rfl
  obtain ⟨-, rfl⟩ : .punctuator "<" = k ∧ b = b' := by rw [less] at next; simpa using next
  exact ⟨(h.unmoved (same.trans same')).enter.setMode .jsx, c', bracketedJsx ⟨b, less, greater⟩⟩

theorem elementEntered (h : Stands x m d c p) (enters : inside? elementBegins p = some q) :
    Stands x .jsx (d + 1) c q ∧ ∃ b, c.Takes .jsx "<" b := by
  obtain ⟨p', begun, -, rfl⟩ := insideIff.mp enters
  obtain ⟨b, p₁, less, same, peeked⟩ := openedTakes h begun
  obtain ⟨slash, p₂, ran, same', -⟩ := meetsRan (meetsPeekIs (h.unmoved same) "/")
  simp only [bind, EStateM.bind, ran] at peeked
  cases slash with
  | true => cases peeked
  | false =>
      cases peeked
      exact ⟨(h.unmoved (same.trans same')).enter.setMode .jsx, b, lessJsx less⟩

end Grammar

namespace Parser

open Grammar

variable {source : String} {config : Config} {file : Option String} {p q : Parser} {next : Parse Bool}

theorem enteredStands (reachable : Reachable source config file p) (enters : inside? (opens next) p = some q) :
    Stands ⟨p.config, p.scanner.file⟩ p.scanner.mode p.depth p.scanner.cursor p := by
  obtain ⟨p', begun, -⟩ := insideIff.mp enters
  exact reachable.stands (openedTextless begun)

/-- The current token begins at the same place in both modes. Where a fragment or an element was seen to begin, what it
begins with is there again for the body. -/
theorem bracketsHandedOver (reachable : Reachable source config file p) :
    (Textless p → p.scanner.HandsOver) ∧
    (∀ inner q, inside? fragmentBegins p = some q →
      outcome (fragment inner) p = (outcome (fragmentBody inner) q).map some ∧
        ∃ less q₁ greater q₂, expect "<" q = .ok less q₁ ∧ expect ">" q₁ = .ok greater q₂) ∧
    ∀ inner q, inside? elementBegins p = some q →
      outcome (element inner) p = (outcome (elementBody inner) q).map some ∧ ∃ less q₁, expect "<" q = .ok less q₁ := by
  refine ⟨fun textless => (reachable.stands textless).scanner.handsOver, fun inner q enters => ?_, fun inner q enters => ?_⟩
  · obtain ⟨here, c', b, less, greater⟩ := fragmentEntered (enteredStands reachable enters) enters
    obtain ⟨t, ran, -, -, rests⟩ := expectAdvances here less
    obtain ⟨t', ran', -⟩ := expectAdvances rests.stands greater
    exact ⟨fragmentGuarded inner ▸ enteredOutcome enters _, t, _, t', _, ran, ran'⟩
  · obtain ⟨here, b, less⟩ := elementEntered (enteredStands reachable enters) enters
    obtain ⟨t, ran, -⟩ := expectAdvances here less
    exact ⟨elementGuarded inner ▸ enteredOutcome enters _, t, _, ran⟩

theorem bracketsHandedOverRead :
    let ahead : Parser := ⟨(Scanner.start "/*a*/ < /*b*/ >x" none).peek.2, {}, 0, false⟩
    let skipped : Parser := ⟨((Scanner.start "/*a*/ <b" none).skipTrivia true).2, {}, 0, false⟩
    Reachable "/*a*/ < /*b*/ >x" {} none ahead ∧ ahead.scanner.ahead.length = 2 ∧ Textless ahead ∧ ahead.scanner.HandsOver ∧
      (∃ q, inside? fragmentBegins ahead = some q ∧
        ∃ less q₁ greater q₂, expect "<" q = .ok less q₁ ∧ expect ">" q₁ = .ok greater q₂) ∧
      Reachable "/*a*/ <b" {} none skipped ∧
      ∃ q, inside? elementBegins skipped = some q ∧ ∃ less q₁, expect "<" q = .ok less q₁ := by
  intro ahead skipped
  have first : Reachable "/*a*/ < /*b*/ >x" {} none ahead := Reachable.start.step (.scanner (.peek _))
  have second : Reachable "/*a*/ <b" {} none skipped := Reachable.start.step (.scanner (.skipTrivia true _))
  obtain ⟨handsOver, fragments, -⟩ := bracketsHandedOver first
  obtain ⟨-, -, elements⟩ := bracketsHandedOver second
  have begun : (inside? fragmentBegins ahead).isSome = true := by decide +kernel
  have begun' : (inside? elementBegins skipped).isSome = true := by decide +kernel
  obtain ⟨q, enters⟩ := Option.isSome_iff_exists.mp begun
  obtain ⟨q', enters'⟩ := Option.isSome_iff_exists.mp begun'
  obtain ⟨p', opened, -⟩ := insideIff.mp enters
  have textless := openedTextless opened
  exact ⟨first, by decide +kernel, textless, handsOver textless, ⟨q, enters, (fragments (within 0) q enters).2⟩,
    second, q', enters', (elements (within 0) q' enters').2⟩

end Parser

end JsxTree
