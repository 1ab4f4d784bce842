import JsxTree.Proofs.Pairs

/-! Every rule of the grammar keeps every pairing, and enters one level where it reads a construct inside. -/
namespace JsxTree

namespace Grammar

open JsxTree.Parser

variable {w : Pairing} {b : Nat} {inner inner' : Inner}

theorem pairedLiteral (token : Token) : Paired w b (literal token) := by
  unfold literal
  split
  · exact pairedPure _
  · exact pairedSomeNode _ _ _ _

theorem pairedTokenWhere (test : Token.Kind → Bool) : Paired w b (tokenWhere test) := by
  apply pairedCurrent.bind
  intro t
  split
  · exact pairedAdvance
  · exact pairedPure _

section Names

theorem pairedJsxIdentifier : Paired w b jsxIdentifier :=
  (pairedTokenWhere _).either (pairedPure _) fun _ => pairedSomeNode _ _ _ _

theorem pairedOwnName : Paired w b (required jsxIdentifier) :=
  pairedJsxIdentifier.required attentiveJsxIdentifier.attends attentiveJsxIdentifier.attends

theorem pairedMemberStep (object : Node) : Paired w b (memberStep object) :=
  (pairedConsume ["."]).either (pairedPure _) fun _ => pairedOwnName.bind fun _ => pairedSomeNode _ _ _ _

theorem pairedName (chained : Bool) : Paired w b (name chained) := by
  refine pairedJsxIdentifier.either (pairedPure _) fun first => ?_
  apply (pairedConsume [":"]).either
  · dsimp only
    split
    · exact (pairedGrow pairedMemberStep first).bind fun _ => pairedPure _
    · exact pairedPure _
  · exact fun _ => pairedOwnName.bind fun _ => pairedSomeNode _ _ _ _

theorem pairedTagName : Paired w b (required (name true)) :=
  (pairedName true).required (attentiveName true).attends (attentiveName true).attends

end Names

theorem pairedStringLiteral : Paired w b stringLiteral := (pairedTokenWhere _).either (pairedPure _) pairedLiteral

theorem pairedTextChild : Paired w b textChild := by
  refine pairedReadText.either (pairedPure _) fun _ => ?_
  exact pairedAdvance.either (pairedPure _) fun _ => pairedSomeNode _ _ _ _

theorem pairedClosingTag (opening : Node) : Paired w b (closingTag opening) := by
  apply (pairedExpect "<").bind
  intro less
  apply (pairedExpect "/").bind
  intro _
  apply pairedTagName.bind
  intro closing
  apply (pairedExpect ">").bind
  intro _
  split
  · exact pairedNode _ _ _ _
  · exact pairedFail (w.mismatched opening closing)

def fragmentFrom (inner : Inner) (start : Position) : Parse Node := do
  let greater ← expect ">"
  let children ← children inner
  let closingLess ← expect "<"
  let _ ← expect "/"
  let _ ← expect ">"
  let opening ← complete ⟨.openingFragment, start⟩ .openingFragment (some greater.span.stop)
  let node ← openNode .closingFragment (.token closingLess)
  let closing ← complete node .closingFragment none
  complete ⟨.fragment, start⟩ (.fragment opening closing children) none

theorem fragmentBodyEq (inner : Inner) :
    fragmentBody inner = expect "<" >>= fun less => fragmentFrom inner less.span.start := rfl

section Markup

variable (h : ∀ c, Alongside w b (inner c) (inner' c))

include h

theorem pairedMarkup : Alongside w b (markup inner) (markup inner') := (h .fragment).either (h .element) fun _ => pairedPure _

omit h in
theorem markupAttends (attends : ∀ c, Attends w (inner c)) : Attends w (markup inner) := by
  intro p p' ran
  obtain ⟨r, p₁, -, rest⟩ := ranBind ran
  cases r with
  | none => exact attends .element rest
  | some a => cases rest

variable (attends : ∀ c, Attends w (inner c))
  (attends' : ∀ c, Attends w (inner' c))

include attends attends'

theorem pairedRequired : Alongside w b (requiredExpression inner) (requiredExpression inner') :=
  (h .expression).required (attends .expression) (attends' .expression)

theorem pairedValueContainer (brace : Token) : Alongside w b (valueContainer inner brace) (valueContainer inner' brace) := by
  apply (pairedOpen _ _).bind
  intro node
  apply Alongside.bind
  · apply Alongside.withMode
    exact (pairedRequired h attends attends').bind fun _ => (pairedExpect _).bind fun _ => pairedPure _
  · exact fun _ => pairedComplete _ _ _

theorem pairedAttributeValue : Alongside w b (attributeValue inner) (attributeValue inner') := by
  apply pairedStringLiteral.either
  · exact (pairedConsume ["\x7b"]).either ((pairedMarkup h).required (markupAttends attends) (markupAttends attends'))
      (pairedValueContainer h attends attends')
  · exact pairedPure

theorem pairedSpreadAttribute : Alongside w b (spreadAttribute inner) (spreadAttribute inner') := by
  refine (pairedConsume ["\x7b"]).either (pairedPure _) fun brace => ?_
  apply (pairedOpen _ _).bind
  intro node
  apply Alongside.bind
  · apply Alongside.withMode
    apply (pairedExpect _).bind
    exact fun _ => (pairedRequired h attends attends').bind fun _ => (pairedExpect _).bind fun _ => pairedPure _
  · exact fun _ => (pairedComplete _ _ _).bind fun _ => pairedPure _

theorem pairedNamedAttribute : Alongside w b (namedAttribute inner) (namedAttribute inner') := by
  refine (pairedName false).either (pairedPure _) fun own => ?_
  apply (pairedOpen _ _).bind
  intro node
  apply (pairedConsume ["="]).either
  · exact (pairedComplete _ _ _).bind fun _ => pairedPure _
  · exact fun _ => (pairedAttributeValue h attends attends').bind fun _ => (pairedComplete _ _ _).bind fun _ => pairedPure _

theorem pairedAttribute : Alongside w b (attribute? inner) (attribute? inner') :=
  (pairedSpreadAttribute h attends attends').either (pairedNamedAttribute h attends attends') fun _ => pairedPure _

theorem pairedBracedContents (brace : Token) :
    Alongside w b (bracedContents inner brace) (bracedContents inner' brace) := by
  apply (pairedConsume ["..."]).bind
  intro spread
  apply (h .expression).attended (attends .expression) (attends' .expression)
  · intro p q related ready ready'
    cases spread with
    | some _ => exact pairedFailUnexpected related ready ready'
    | none =>
        refine Alongside.run (pairedLastEnd.bind fun after => ?_) related
        apply (pairedExpect _).bind
        intro _
        apply (pairedOpen _ _).bind
        exact fun _ => (pairedComplete _ _ _).bind fun _ => pairedNode _ _ _ _
  · intro expression
    apply pairedLastEnd.bind
    intro after
    cases spread with
    | some _ => exact (pairedExpect _).bind fun _ => pairedNode _ _ _ _
    | none => exact (pairedExpect _).bind fun _ => pairedNode _ _ _ _

theorem pairedBracedChild : Alongside w b (bracedChild inner) (bracedChild inner') := by
  refine (pairedConsume ["\x7b"]).either (pairedPure _) fun brace => ?_
  exact ((pairedBracedContents h attends attends' brace).withMode .script).bind fun _ => pairedPure _

theorem pairedChild : Alongside w b (child inner) (child inner') := by
  apply pairedTextChild.either
  · exact (pairedMarkup h).either (pairedBracedChild h attends attends') fun _ => pairedPure _
  · exact fun _ => pairedPure _

theorem pairedChildren : Alongside w b (children inner) (children inner') := (pairedChild h attends attends').many.bind fun _ => pairedPure _

theorem pairedAttributes : Alongside w b (attributes inner) (attributes inner') :=
  (pairedAttribute h attends attends').many.bind fun _ => pairedPure _

theorem pairedFragmentFrom (start : Position) : Alongside w b (fragmentFrom inner start) (fragmentFrom inner' start) := by
  apply (pairedExpect ">").bind
  intro greater
  apply (pairedChildren h attends attends').bind
  intro ns
  apply (pairedExpect "<").bind
  intro closingLess
  apply (pairedExpect "/").bind
  intro _
  apply (pairedExpect ">").bind
  exact fun _ => (pairedComplete _ _ _).bind fun _ => (pairedOpen _ _).bind fun _ =>
    (pairedComplete _ _ _).bind fun _ => pairedComplete _ _ _

theorem pairedFragmentBody : Alongside w b (fragmentBody inner) (fragmentBody inner') :=
  (pairedExpect "<").bind fun less => pairedFragmentFrom h attends attends' less.span.start

theorem pairedFragment : Alongside w (b + 1) (fragment inner) (fragment inner') := by
  apply (pairedCurrentIs "<").bind
  intro less
  split
  · apply (pairedPeekIs ">").bind
    intro greater
    split
    · exact ((pairedFragmentBody h attends attends').withMode .jsx).deeper.bind fun _ => pairedPure _
    · exact pairedPure _
  · exact pairedPure _

theorem pairedElementTail (opening : Node) (selfClosing : Bool) :
    Alongside w b (elementTail inner opening selfClosing) (elementTail inner' opening selfClosing) := by
  unfold elementTail
  split
  · exact pairedPure _
  · exact (pairedChildren h attends attends').bind fun _ => (pairedClosingTag opening).bind fun _ => pairedPure _

theorem pairedElementBody : Alongside w b (elementBody inner) (elementBody inner') := by
  apply (pairedExpect "<").bind
  intro less
  apply pairedTagName.bind
  intro own
  apply (pairedAttributes h attends attends').bind
  intro as
  apply (pairedConsume ["/"]).bind
  intro slash
  apply (pairedExpect ">").bind
  intro greater
  apply (pairedElementTail h attends attends' own slash.isSome).bind
  intro tail
  exact (pairedOpen _ _).bind fun _ => (pairedComplete _ _ _).bind fun _ => pairedNode _ _ _ _

theorem pairedElement : Alongside w (b + 1) (element inner) (element inner') := by
  apply (pairedCurrentIs "<").bind
  intro less
  split
  · apply (pairedPeekIs "/").bind
    intro slash
    split
    · exact pairedPure _
    · exact ((pairedElementBody h attends attends').withMode .jsx).deeper.bind fun _ => pairedPure _
  · exact pairedPure _

end Markup

section Expressions

theorem pairedIdentifier : Paired w b identifier :=
  (pairedTokenWhere _).either (pairedPure _) fun _ => pairedSomeNode _ _ _ _

theorem pairedLiteralToken : Paired w b literalToken := pairedAdvance.either (pairedPure _) pairedLiteral

theorem pairedOwnIdentifier : Paired w b (required identifier) :=
  pairedIdentifier.required attentiveIdentifier.attends attentiveIdentifier.attends

variable (h : ∀ c, Alongside w b (inner c) (inner' c))
  (attends : ∀ c, Attends w (inner c))
  (attends' : ∀ c, Attends w (inner' c))

include h attends attends'

theorem pairedParenthesized : Alongside w b (parenthesized inner) (parenthesized inner') :=
  (pairedExpect "(").bind fun _ => (pairedRequired h attends attends').bind fun _ => (pairedExpect ")").bind fun _ => pairedPure _

theorem pairedPrimary : Alongside w (b + 1) (primary inner) (primary inner') := by
  refine pairedCurrent.either (pairedPure _) fun token => ?_
  dsimp only
  split
  · exact pairedIdentifier
  split
  · exact pairedLiteralToken
  split
  · exact (pairedParenthesized h attends attends').deeper.bind fun _ => pairedPure _
  intro p q related
  -- The flag is read off the state, and is the same in both.
  change Matched _ _ _ _ ((if token.isPunctuator "<" && p.config.jsx then _ else _ : Rule Node) p)
    ((if token.isPunctuator "<" && q.config.jsx then _ else _ : Rule Node) q)
  rw [(w.abreast related).jsx]
  split
  · refine Alongside.run ?_ related
    exact (pairedFragment h attends attends').either (pairedElement h attends attends') fun _ => pairedPure _
  · exact pairedPure _ related

theorem pairedComputedProperty : Alongside w b (computedProperty inner) (computedProperty inner') :=
  (pairedRequired h attends attends').bind fun _ => (pairedExpect "]").bind fun _ => pairedPure _

theorem pairedArguments : Alongside w b (arguments inner) (arguments inner') :=
  (pairedSeparatedList (h .expression) [","] (attends .expression) (attends' .expression)).bind fun _ => (pairedExpect ")").bind fun _ => pairedPure _

theorem pairedCall (callee : Node) : Alongside w (b + 1) (call inner callee) (call inner' callee) :=
  (pairedArguments h attends attends').deeper.bind fun _ => pairedNode _ _ _ _

theorem pairedSuffix (object : Node) : Alongside w (b + 1) (suffix inner object) (suffix inner' object) := by
  apply (pairedConsume ["."]).either
  · apply (pairedConsume ["["]).either
    · refine (pairedConsume ["("]).either (pairedPure _) fun _ => ?_
      exact (pairedCall h attends attends' object).bind fun _ => pairedPure _
    · exact fun _ => (pairedComputedProperty h attends attends').deeper.bind fun _ => (pairedNode _ _ _ _).bind fun _ => pairedPure _
  · exact fun _ => pairedOwnIdentifier.bind fun _ => (pairedNode _ _ _ _).bind fun _ => pairedPure _

theorem pairedCallOrMember : Alongside w (b + 1) (callOrMember inner) (callOrMember inner') :=
  (pairedPrimary h attends attends').either (pairedPure _) fun object => (pairedGrow (pairedSuffix h attends attends') object).bind fun _ => pairedPure _

theorem pairedUnary : Alongside w (b + 1) (unary inner) (unary inner') := by
  refine (pairedConsume prefixOperators).either (pairedCallOrMember h attends attends') fun operator => ?_
  exact (h .unary).deeper.attended (deeperAttends (attends .unary)) (deeperAttends (attends' .unary))
    (fun _ _ => pairedFailUnexpected) fun _ => pairedSomeNode _ _ _ _

theorem pairedLadder (levels : List Level) :
    let ladder (inner : Inner) :=
      levels.foldr (fun level operand => leftFold operand level.operators level.join) (unary inner)
    Alongside w (b + 1) (ladder inner) (ladder inner') := by
  induction levels with
  | nil => exact pairedUnary h attends attends'
  | cons level tighter ih =>
      exact pairedLeftFold ih level.operators level.join (attentiveLadder inner tighter) (attentiveLadder inner' tighter)

theorem pairedConstruct (c : Construct) : Alongside w (b + 1) (construct inner c) (construct inner' c) := by
  cases c with
  | expression => exact pairedLadder h attends attends' levels
  | unary => exact pairedUnary h attends attends'
  | fragment => exact pairedFragment h attends attends'
  | element => exact pairedElement h attends attends'

end Expressions

theorem pairedWithin (budget : Nat) (c : Construct) : Paired w budget (within budget c) := by
  induction budget generalizing c with
  | zero => exact pairedExhausted
  | succ budget ih =>
      have attends := fun c => (attentiveWithin budget c).attends (w := w)
      exact pairedConstruct ih attends attends c

end Grammar

namespace Parser

variable {w : Pairing} {p q : Parser}

def wholeWithin (budget : Nat) : Parse Node := do
  let n ← required (Grammar.within budget .expression)
  if ← atEnd then return n else failUnexpected

theorem wholeExpressionEq (p : Parser) : wholeExpression p = wholeWithin (p.scanner.cursor.rest.length + 1) p := by
  have here : rule .expression p = Grammar.within (p.scanner.cursor.rest.length + 1) .expression p := by rw [rule]
  simp only [wholeExpression, wholeWithin, required, bind, EStateM.bind, here]

theorem pairedWholeWithin (budget : Nat) : Paired w budget (wholeWithin budget) := by
  have attends := (Grammar.attentiveWithin budget .expression).attends (w := w)
  apply ((Grammar.pairedWithin budget .expression).required attends attends).bind
  intro n p q related
  obtain ⟨token, related'⟩ := w.current related
  have ended : p.scanner.atEnd.1 = q.scanner.atEnd.1 := congrArg Option.isNone token
  change Matched _ _ _ _ ((if p.scanner.atEnd.1 then pure n else failUnexpected : Parse Node)
    { p with scanner := p.scanner.current.2 }) ((if q.scanner.atEnd.1 then pure n else failUnexpected : Parse Node)
    { q with scanner := q.scanner.current.2 })
  rw [ended]
  split
  · exact .same related'
  · exact pairedFailUnexpected related' (w.looked (Scanner.currentLooked _)) (w.looked (Scanner.currentLooked _))

theorem pairedWholeExpression (related : w.rel (p.scanner.cursor.rest.length + 1) p q) :
    let levels := p.scanner.cursor.rest.length + 1
    Matched (w.rel levels) (w.failing levels) w.shared w.early (wholeExpression p) (wholeExpression q) := by
  have run := pairedWholeWithin _ related
  rwa [wholeExpressionEq p, wholeExpressionEq q, ← (w.abreast related).cursor]

end Parser

end JsxTree
