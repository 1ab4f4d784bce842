import JsxTree.Proofs.Progress
import JsxTree.Proofs.Sited

/-! Lists with separators, whatever the rule for their items. A rule that does not go back behind what had been consumed
matches in turn with one separator being consumed, and the list holds all of these matches and all of these separators. -/
namespace JsxTree

open JsxTree.Parser

section Position

variable {source : String} {config : Config} {file : Option String} {a b : Cursor} {p : Parser}

theorem Cursor.Within.shrinks (ha : a.Within source) (hb : b.Within source) (onward : a.position ≤ b.position) :
    b.rest.length ≤ a.rest.length := by
  obtain ⟨before, whole, offset⟩ := ha.offset
  obtain ⟨behind, whole', offset'⟩ := hb.offset
  have farther : a.place.offset ≤ b.place.offset := onward
  rw [whole] at whole'
  obtain ⟨between, split, rest⟩ | ⟨_ | ⟨c, between⟩, split, rest⟩ := List.append_eq_append_iff.mp whole'
  · rw [rest, List.length_append]
    exact Nat.le_add_left _ _
  · exact Nat.le_of_eq (congrArg List.length rest)
  · rw [offset, offset', split, Text.byteLengthAppend, Text.byteLength] at farther
    have positive := c.utf8Size_pos
    omega

theorem Scanner.sitedLasting (source : String) (file : Option String) : Lasting (Sited source file) := by
  intro s s' move h
  cases move with
  | current | atEnd => exact h.current.1
  | peek => exact h.peek.1
  | advance => exact h.advance.1
  | consume ps => exact (h.consume ps).1
  | readText => exact h.readText.1
  | skipTrivia required => exact h.skipTrivia required
  | setMode m => exact h.setMode m

theorem Parser.Reachable.sited (h : Reachable source config file p) : p.scanner.Sited source file :=
  h.lasts (Scanner.sitedLasting source file) (Scanner.startSited source file)
    fun _ _ now marked => now.rewind marked.cursor marked.lastEnd

end Position

namespace Parser

variable {α β : Type}

def separator? (separators : List String) (p : Parser) : Option Token :=
  p.scanner.current.1.filter fun t => separators.any t.isPunctuator

def looked (p : Parser) : Parser := { p with scanner := p.scanner.current.2 }

def advanced (p : Parser) : Parser := { p with scanner := p.scanner.advance.2 }

structure Link (α : Type) where
  separator : Token
  item : α
  after : Parser

def Link.separated (l : Link α) : Separated α := ⟨some l.separator, l.item⟩

inductive Alternates (rule : Rule α) (separators : List String) : Parser → List (Link α) → Parser → Prop where
  | stop (p : Parser) : Alternates rule separators p [] p
  | more {p q r : Parser} {t : Token} {a : α} {links : List (Link α)} (separator : separator? separators p = some t)
      (item : rule p.advanced = .ok (some a) q) (next : Alternates rule separators q links r) :
      Alternates rule separators p (⟨t, a, q⟩ :: links) r

def Lists (rule : Rule α) (separators : List String) (p : Parser) (first : α) (links : List (Link α)) (r : Parser) : Prop :=
  ∃ q, rule p = .ok (some first) q ∧ Alternates rule separators q links r

inductive Breaks (rule : Rule α) (separators : List String) (p : Parser) : Halt → Parser → Prop where
  | failed {t : Token} {h : Halt} {q : Parser} (separator : separator? separators p = some t)
      (item : rule p.advanced = .error h q) : Breaks rule separators p h q
  | missing {t : Token} {e : ParseError} {p' q : Parser} (separator : separator? separators p = some t)
      (item : rule p.advanced = .ok none p') (error : unexpected none p' = .ok e q) : Breaks rule separators p (.error e) q

inductive Unfolds (rule : Rule α) (separators : List String) (p : Parser) :
    EStateM.Result Halt Parser (List (Separated α)) → Prop where
  | empty {q : Parser} (ran : rule p = .ok none q) : Unfolds rule separators p (.ok [] q)
  | failed {h : Halt} {q : Parser} (ran : rule p = .error h q) : Unfolds rule separators p (.error h q)
  | stops {first : α} {links : List (Link α)} {r : Parser} (listed : Lists rule separators p first links r)
      (absent : separator? separators r = none) :
      Unfolds rule separators p (.ok (⟨none, first⟩ :: links.map Link.separated) r.looked)
  | breaks {first : α} {links : List (Link α)} {r q : Parser} {h : Halt} (listed : Lists rule separators p first links r)
      (breaks : Breaks rule separators r h q) : Unfolds rule separators p (.error h q)

/-- What is asked of a rule, from all states that operations bring about: it is made of operations itself, a match does not
take the scanner back behind what had been consumed, and without a match nothing is consumed. -/
structure Forward (source : String) (config : Config) (file : Option String) (rule : Rule α) : Prop where
  reaches {p q : Parser} {r : Option α} (before : Reachable source config file p) (ran : rule p = .ok r q) :
    Reachable source config file q
  onward {p q : Parser} {a : α} (before : Reachable source config file p) (ran : rule p = .ok (some a) q) :
    p.scanner.lastEnd ≤ q.scanner.cursor.position
  still {p q : Parser} (before : Reachable source config file p) (ran : rule p = .ok none q) :
    q.scanner.lastEnd = p.scanner.lastEnd

variable {source : String} {config : Config} {file : Option String} {rule : Rule α} {separators : List String}
  {p q r : Parser} {t : Token} {a : α} {h : Halt} {links : List (Link α)}

section Consuming

theorem separatorCurrent (found : separator? separators p = some t) : p.scanner.advance.1 = some t := by
  rw [← currentAdvances]
  exact (Option.filter_eq_some_iff.mp found).1

theorem consumeSeparator (found : separator? separators p = some t) : consume separators p = .ok (some t) p.advanced := by
  obtain ⟨current, fits⟩ := Option.filter_eq_some_iff.mp found
  have taken : p.scanner.consume separators = (some t, p.scanner.advance.2) := by
    simp only [Scanner.consume, current, Option.any_some, fits, if_true, Scanner.advanceCurrent]
    rw [← separatorCurrent found]
  simp only [consume, scan, taken, advanced]

theorem consumeOther (absent : separator? separators p = none) : consume separators p = .ok none p.looked := by
  have misfit : p.scanner.current.1.any (fun t => separators.any t.isPunctuator) = false := by
    rw [separator?, Option.filter_eq_none_iff] at absent
    cases current : p.scanner.current.1 with
    | none => rfl
    | some t => simpa using absent t current
  have left : p.scanner.consume separators = (none, p.scanner.current.2) := by
    simp only [Scanner.consume, misfit, Bool.false_eq_true, if_false]
  simp only [consume, scan, left, looked]

theorem advancedReachable (before : Reachable source config file p) : Reachable source config file p.advanced :=
  before.step (.scanner (.advance _))

theorem advancedEnd (found : separator? separators p = some t) : p.advanced.scanner.lastEnd = t.span.stop := by
  have taken := separatorCurrent found
  simp only [advanced, Scanner.advance] at *
  cases ahead : (p.scanner.fill 1).ahead with
  | nil => simp [ahead] at taken
  | cons a as =>
      rw [ahead] at taken
      cases taken
      rfl

theorem advancedRests (valid : p.scanner.Valid) (found : separator? separators p = some t) :
    p.advanced.scanner.lastEnd = p.advanced.scanner.cursor.position ∧
    p.advanced.scanner.cursor.rest.length < p.scanner.cursor.rest.length := by
  have consumed := consumeSeparator found
  simp only [consume, scan, EStateM.Result.ok.injEq, Parser.mk.injEq, advanced] at consumed
  cases valid with
  | inl stands =>
      have step := stands.consume separators
      generalize p.scanner.consume separators = taken at *
      obtain ⟨t', s⟩ := taken
      obtain ⟨rfl, rfl, -⟩ := consumed
      obtain ⟨_, -, c, next, -, -, rests⟩ := step
      have here : p.advanced.scanner.cursor = c := rests.cursor
      rw [here]
      exact ⟨rests.ended, (Cursor.nextAdvances next).shorter⟩
  | inr pending =>
      rw [pending.consume separators] at consumed
      cases consumed.1

end Consuming

section Rounds

def preceded (before : List β) : EStateM.Result Halt Parser (List β) → EStateM.Result Halt Parser (List β)
  | .ok items q => .ok (before ++ items) q
  | .error h q => .error h q

theorem manyNone {round : Rule β} (ran : round p = .ok none q) (bound : List Char) :
    manyWithin round bound p = .ok [] q := by
  cases bound <;> simp only [manyWithin, bind, EStateM.bind, ran, pure, EStateM.pure]

theorem manyError {round : Rule β} (ran : round p = .error h q) (bound : List Char) :
    manyWithin round bound p = .error h q := by
  cases bound <;> simp only [manyWithin, bind, EStateM.bind, ran]

theorem manyMore {round : Rule β} {b : β} (ran : round p = .ok (some b) q) (c : Char) (bound : List Char) :
    manyWithin round (c :: bound) p = preceded [b] (manyWithin round bound q) := by
  simp only [manyWithin, bind, EStateM.bind, ran]
  cases manyWithin round bound q <;> rfl

theorem itemOther (absent : separator? separators p = none) : separatedItem rule separators p = .ok none p.looked := by
  simp only [separatedItem, bind, EStateM.bind, consumeOther absent]
  rfl

theorem itemMatch (found : separator? separators p = some t) (ran : rule p.advanced = .ok (some a) q) :
    separatedItem rule separators p = .ok (some ⟨some t, a⟩) q := by
  simp only [separatedItem, required, bind, EStateM.bind, consumeSeparator found, ran]
  rfl

theorem Breaks.item (breaks : Breaks rule separators p h q) : separatedItem rule separators p = .error h q := by
  cases breaks with
  | failed found ran => simp only [separatedItem, required, bind, EStateM.bind, consumeSeparator found, ran]
  | missing found ran error =>
      simp only [separatedItem, required, bind, EStateM.bind, consumeSeparator found, ran, failUnexpected, error]
      rfl

end Rounds

section Alternating

theorem Alternates.reaches (path : Alternates rule separators p links r) (forward : Forward source config file rule)
    (before : Reachable source config file p) : Reachable source config file r := by
  induction path with
  | stop => exact before
  | more _ item _ ih => exact ih (forward.reaches (advancedReachable before) item)

theorem Forward.shorter (forward : Forward source config file rule) (before : Reachable source config file p)
    (found : separator? separators p = some t) (ran : rule p.advanced = .ok (some a) q) :
    q.scanner.cursor.rest.length < p.scanner.cursor.rest.length := by
  have behind := advancedReachable before
  have later := forward.reaches behind ran
  obtain ⟨ended, shorter⟩ := advancedRests before.valid found
  have onward := forward.onward behind ran
  rw [ended] at onward
  exact Nat.lt_of_le_of_lt (behind.sited.cursor.shrinks later.sited.cursor onward) shorter

theorem Alternates.many (path : Alternates rule separators p links r) (forward : Forward source config file rule)
    (before : Reachable source config file p) {bound : List Char} (enough : p.scanner.cursor.rest.length ≤ bound.length)
    {result : EStateM.Result Halt Parser (List (Separated α))}
    (rest : ∀ bound, manyWithin (separatedItem rule separators) bound r = result) :
    manyWithin (separatedItem rule separators) bound p = preceded (links.map Link.separated) result := by
  induction path generalizing bound with
  | stop =>
      rw [rest]
      cases result <;> rfl
  | @more p q r t a links found item _ ih =>
      have shorter := forward.shorter before found item
      obtain ⟨c, bound, rfl⟩ := List.exists_cons_of_length_pos (Nat.lt_of_lt_of_le (Nat.zero_lt_of_lt shorter) enough)
      have fewer : q.scanner.cursor.rest.length ≤ bound.length := Nat.le_of_lt_succ (Nat.lt_of_lt_of_le shorter enough)
      have later := forward.reaches (advancedReachable before) item
      rw [manyMore (itemMatch found item), ih later fewer rest]
      cases result <;> rfl

theorem alternatesEnds (forward : Forward source config file rule) (separators : List String)
    (before : Reachable source config file p) : ∃ links r, Alternates rule separators p links r ∧
      (separator? separators r = none ∨ ∃ h q, Breaks rule separators r h q) := by
  generalize left : p.scanner.cursor.rest.length = n
  -- By what is left of the source: a match behind a separator leaves less.
  induction n using Nat.strongRecOn generalizing p with
  | ind n ih =>
      cases found : separator? separators p with
      | none => exact ⟨[], p, .stop p, .inl found⟩
      | some t =>
          cases ran : rule p.advanced with
          | error h q => exact ⟨[], p, .stop p, .inr ⟨h, q, .failed found ran⟩⟩
          | ok found' q =>
              cases found' with
              | none =>
                  obtain ⟨e, s, -, -, error⟩ := unexpectedOf q.scanner
                  exact ⟨[], p, .stop p, .inr ⟨.error e, _, .missing found ran (error _ _ _)⟩⟩
              | some a =>
                  have shorter := forward.shorter before found ran
                  have later := forward.reaches (advancedReachable before) ran
                  obtain ⟨links, r, path, ends⟩ := ih _ (left ▸ shorter) later rfl
                  exact ⟨⟨t, a, q⟩ :: links, r, .more found ran path, ends⟩

end Alternating

section Lists

variable {first : α}

theorem Lists.list (listed : Lists rule separators p first links r) (forward : Forward source config file rule)
    (before : Reachable source config file p) {result : EStateM.Result Halt Parser (List (Separated α))}
    (rest : ∀ bound, manyWithin (separatedItem rule separators) bound r = result) :
    separatedList rule separators p = preceded (⟨none, first⟩ :: links.map Link.separated) result := by
  obtain ⟨q, ran, path⟩ := listed
  have rounds := path.many forward (forward.reaches before ran) (Nat.le_refl _) rest
  simp only [separatedList, many, bind, EStateM.bind, ran, rounds]
  cases result <;> rfl

theorem Unfolds.list {result : EStateM.Result Halt Parser (List (Separated α))} (unfolds : Unfolds rule separators p result)
    (forward : Forward source config file rule) (before : Reachable source config file p) :
    separatedList rule separators p = result := by
  cases unfolds with
  | empty ran | failed ran => simp only [separatedList, bind, EStateM.bind, ran, pure, EStateM.pure]
  | stops listed absent =>
      rw [listed.list forward before (manyNone (itemOther absent)), preceded, List.append_nil]
  | breaks listed breaks => exact listed.list forward before (manyError breaks.item)

theorem listUnfolds (forward : Forward source config file rule) (separators : List String)
    (before : Reachable source config file p) : Unfolds rule separators p (separatedList rule separators p) := by
  have comes {result} (unfolds : Unfolds rule separators p result) :
      Unfolds rule separators p (separatedList rule separators p) := by
    rwa [unfolds.list forward before]
  cases ran : rule p with
  | error h q => exact comes (.failed ran)
  | ok found q =>
      cases found with
      | none => exact comes (.empty ran)
      | some first =>
          obtain ⟨links, r, path, absent | ⟨h, q', breaks⟩⟩ :=
            alternatesEnds forward separators (forward.reaches before ran)
          · exact comes (.stops ⟨q, ran, path⟩ absent)
          · exact comes (.breaks ⟨q, ran, path⟩ breaks)

theorem Lists.reaches (listed : Lists rule separators p first links r) (forward : Forward source config file rule)
    (before : Reachable source config file p) : Reachable source config file r := by
  obtain ⟨q, ran, path⟩ := listed
  exact path.reaches forward (forward.reaches before ran)

end Lists

theorem ruleForward (k : Construct) : Forward source config file (Parser.rule k) where
  reaches {p q r} before ran := by
    have left : p.after k = q := by rw [after, ran]
    exact left ▸ before.step (.rule k p)
  onward {p q a} before ran := by
    have contract := (validContract k before.valid).1
    have left : p.after k = q := by rw [after, ran]
    have valid : q.scanner.Valid := left ▸ (before.step (.rule k p)).valid
    rw [Contract, ran] at contract
    exact Position.leTrans contract.lastEnd valid.behind
  still before ran := by
    have contract := (validContract k before.valid).1
    rw [Contract, ran] at contract
    exact contract.same

/-- The outcomes of a list. Its items are matches of the rule, the first without a separator and all others with the one that
was consumed in front of them; no separator is behind the last. Errors are those of the rule, and where it does not match
behind a separator the error for the token there. -/
theorem separatedListAlternates (forward : Forward source config file rule) (separators : List String)
    (before : Reachable source config file p) :
    (∀ items q, separatedList rule separators p = .ok items q ↔
      items = [] ∧ rule p = .ok none q ∧ q.scanner.lastEnd = p.scanner.lastEnd ∨
      ∃ first links r, Lists rule separators p first links r ∧ separator? separators r = none ∧ q = r.looked ∧
        items = ⟨none, first⟩ :: links.map Link.separated) ∧
    (∀ h q, separatedList rule separators p = .error h q ↔
      rule p = .error h q ∨ ∃ first links r, Lists rule separators p first links r ∧ Breaks rule separators r h q) ∧
    ∀ first links r t q, Lists rule separators p first links r → separator? separators r = some t →
      rule r.advanced = .ok none q → q.scanner.lastEnd = t.span.stop ∧
      ∃ e q', unexpected none q = .ok e q' ∧ separatedList rule separators p = .error (.error e) q' := by
  have unfolds := listUnfolds forward separators before
  -- What ran is read off the unfolding. For what is told an unfolding is put together, and a run has one outcome only.
  refine ⟨fun items q => ⟨fun ran => ?_, fun told => ?_⟩, fun h q => ⟨fun ran => ?_, fun told => ?_⟩, ?_⟩
  · rw [ran] at unfolds
    cases unfolds with
    | empty absent => exact .inl ⟨rfl, absent, forward.still before absent⟩
    | @stops first links r listed absent => exact .inr ⟨first, links, r, listed, absent, rfl, rfl⟩
  · obtain ⟨rfl, absent, -⟩ | ⟨first, links, r, listed, absent, rfl, rfl⟩ := told
    · exact (Unfolds.empty absent).list forward before
    · exact (Unfolds.stops listed absent).list forward before
  · rw [ran] at unfolds
    cases unfolds with
    | failed own => exact .inl own
    | @breaks first links r q h listed breaks => exact .inr ⟨first, links, r, listed, breaks⟩
  · obtain own | ⟨first, links, r, listed, breaks⟩ := told
    · exact (Unfolds.failed own).list forward before
    · exact (Unfolds.breaks listed breaks).list forward before
  · intro first links r t q listed found missing
    obtain ⟨e, s, -, -, error⟩ := unexpectedOf q.scanner
    have behind := advancedReachable (listed.reaches forward before)
    refine ⟨(forward.still behind missing).trans (advancedEnd found), e, _, error _ _ _, ?_⟩
    exact (Unfolds.breaks listed (.missing found missing (error _ _ _))).list forward before

theorem separatedListAlternatesPair : Forward "a, b" {} none (Parser.rule .unary) ∧
    Reachable "a, b" {} none (.start "a, b" {} none) ∧ ∃ first links r,
      Lists (Parser.rule .unary) [","] (.start "a, b" {} none) first links r ∧ separator? [","] r = none ∧
      links.map (fun l => l.separator.text) = [","] := by
  have forward : Forward "a, b" {} none (Parser.rule .unary) := ruleForward .unary
  have ran : ((separatedList (Parser.rule .unary) [","]).run' (.start "a, b" {} none)).map
      (List.map fun item => item.separator.map Token.text) = some [none, some ","] := by decide +kernel
  unfold EStateM.run' at ran
  split at ran
  · rename_i items q listed
    obtain ⟨rfl, -⟩ | ⟨first, links, r, lists, absent, -, rfl⟩ :=
      ((separatedListAlternates forward [","] .start).1 items q).mp listed
    · cases ran
    · refine ⟨forward, .start, first, links, r, lists, absent, ?_⟩
      simpa [Link.separated] using ran
  · cases ran

end Parser

end JsxTree
