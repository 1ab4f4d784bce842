import JsxTree.Proofs.Watches

/-! Every rule of the grammar upholds every watch, as long as the rule for elements does: it is the only one with an error
of its own, for tags that do not match. -/
namespace JsxTree

namespace Grammar

open JsxTree.Parser

variable {w : Watch} {inner : Inner}

def Tags (w : Watch) : Prop :=
  ∀ ⦃inner : Inner⦄, (∀ c, Upholds w (inner c)) → Upholds w (withMode .jsx (elementBody inner))

theorem upholdsLiteral (token : Token) : Upholds w (literal token) := by
  unfold literal
  split
  · exact holds
  · exact upholdsSomeNode .literal (.token token)

theorem upholdsTokenWhere (test : Token.Kind → Bool) : Upholds w (tokenWhere test) := by
  refine upholdsCurrent.bind fun t => ?_
  split
  · exact upholdsAdvance
  · exact holds

section Names

theorem upholdsJsxIdentifier : Upholds w jsxIdentifier :=
  (upholdsTokenWhere _).either holds fun token => upholdsSomeNode .jsxIdentifier (.token token)

theorem upholdsMemberStep (object : Node) : Upholds w (memberStep object) :=
  (upholdsConsume ["."]).either holds fun _ => upholdsJsxIdentifier.required.bind fun _ =>
    upholdsSomeNode .jsxMember (.node object)

theorem upholdsName (chained : Bool) : Upholds w (name chained) := by
  refine upholdsJsxIdentifier.either holds fun first => ?_
  refine (upholdsConsume [":"]).either ?_ fun _ => ?_
  · dsimp only
    split
    · exact (upholdsGrow upholdsMemberStep first).bind fun _ => holds
    · exact holds
  · exact upholdsJsxIdentifier.required.bind fun _ => upholdsSomeNode .namespacedName (.node first)

end Names

theorem upholdsStringLiteral : Upholds w stringLiteral := (upholdsTokenWhere _).either holds upholdsLiteral

theorem readTextNone {s : Scanner} (h : s.readText.1 = none) : s.readText.2 = s := by
  unfold Scanner.readText at *
  split at h
  · rfl
  · cases h

theorem upholdsTextChild : Upholds w textChild := by
  intro m b p watched
  have consumed := w.text watched
  refine comesScan ?_
  cases read : p.scanner.readText.1 with
  | none =>
      rw [readTextNone read]
      exact watched
  | some _ =>
      refine comesScan ?_
      cases p.scanner.readText.2.advance.1 with
      | none => exact consumed
      | some token => exact upholdsSomeNode .jsxText (.token token) _ consumed

section Markup

variable (h : ∀ c, Upholds w (inner c))

include h

theorem upholdsMarkup : Upholds w (markup inner) := (h .fragment).either (h .element) fun _ => holds

theorem upholdsValueContainer (brace : Token) : Upholds w (valueContainer inner brace) := by
  have contents : Upholds w (do
      let expression ← requiredExpression inner
      let _ ← expect "\x7d"
      return expression) := (h .expression).required.bind fun _ => (upholdsExpect _).bind fun _ => holds
  exact (upholdsOpen .container (.token brace)).bind fun _ => (contents.withMode .script).bind fun _ => upholdsComplete

theorem upholdsAttributeValue : Upholds w (attributeValue inner) :=
  upholdsStringLiteral.either
    ((upholdsConsume ["\x7b"]).either (upholdsMarkup h).required (upholdsValueContainer h)) fun _ => holds

theorem upholdsSpreadAttribute : Upholds w (spreadAttribute inner) := by
  have contents : Upholds w (do
      let _ ← expect "..."
      let argument ← requiredExpression inner
      let _ ← expect "\x7d"
      return argument) :=
    (upholdsExpect _).bind fun _ => (h .expression).required.bind fun _ => (upholdsExpect _).bind fun _ => holds
  refine (upholdsConsume ["\x7b"]).either holds fun brace => ?_
  exact (upholdsOpen .spreadAttribute (.token brace)).bind fun _ => (contents.withMode .script).bind fun _ =>
    upholdsComplete.bind fun _ => holds

theorem upholdsNamedAttribute : Upholds w (namedAttribute inner) := by
  refine (upholdsName false).either holds fun own => (upholdsOpen .jsxAttribute (.node own)).bind fun _ => ?_
  refine (upholdsConsume ["="]).either ?_ fun _ => ?_
  · exact upholdsComplete.bind fun _ => holds
  · exact (upholdsAttributeValue h).bind fun _ => upholdsComplete.bind fun _ => holds

theorem upholdsAttributes : Upholds w (attributes inner) := by
  have each : Upholds w (attribute? inner) :=
    (upholdsSpreadAttribute h).either (upholdsNamedAttribute h) fun _ => holds
  exact each.many.bind fun _ => holds

theorem upholdsBracedContents (brace : Token) : Upholds w (bracedContents inner brace) := by
  refine (upholdsConsume ["..."]).bind fun spread => (h .expression).bind fun expression => ?_
  refine upholdsLastEnd.bind fun after => ?_
  cases spread with
  | some _ =>
      cases expression with
      | none => exact upholdsFailUnexpected
      | some _ => exact (upholdsExpect _).bind fun _ => upholdsNode .spreadChild (.token brace)
  | none =>
      cases expression with
      | some _ => exact (upholdsExpect _).bind fun _ => upholdsNode .container (.token brace)
      | none =>
          refine (upholdsExpect _).bind fun _ => (upholdsOpen .emptyExpression (.position after)).bind fun _ => ?_
          exact upholdsComplete.bind fun _ => upholdsNode .container (.token brace)

theorem upholdsBracedChild : Upholds w (bracedChild inner) :=
  (upholdsConsume ["\x7b"]).either holds fun brace => ((upholdsBracedContents h brace).withMode .script).bind fun _ => holds

theorem upholdsChildren : Upholds w (children inner) := by
  have each : Upholds w (child inner) :=
    upholdsTextChild.either ((upholdsMarkup h).either (upholdsBracedChild h) fun _ => holds) fun _ => holds
  exact each.many.bind fun _ => holds

theorem upholdsFragmentBody : Upholds w (fragmentBody inner) := by
  refine (upholdsExpect "<").bind fun less => (upholdsExpect ">").bind fun greater => (upholdsChildren h).bind fun _ => ?_
  refine (upholdsExpect "<").bind fun closingLess => (upholdsExpect "/").bind fun _ => (upholdsExpect ">").bind fun _ => ?_
  refine (upholdsOpen .openingFragment (.token less)).bind fun _ => upholdsComplete.bind fun _ => ?_
  refine (upholdsOpen .closingFragment (.token closingLess)).bind fun _ => upholdsComplete.bind fun _ => ?_
  exact upholdsNode .fragment (.token less)

theorem upholdsFragment : Upholds w (fragment inner) := by
  refine (upholdsCurrentIs "<").bind fun _ => ?_
  split
  · refine (upholdsPeekIs ">").bind fun _ => ?_
    split
    · exact ((upholdsFragmentBody h).withMode .jsx).deeper.bind fun _ => holds
    · exact holds
  · exact holds

theorem upholdsElement (tags : Tags w) : Upholds w (element inner) := by
  refine (upholdsCurrentIs "<").bind fun _ => ?_
  split
  · refine (upholdsPeekIs "/").bind fun _ => ?_
    split
    · exact holds
    · exact (tags h).deeper.bind fun _ => holds
  · exact holds

end Markup

section Expressions

theorem upholdsIdentifier : Upholds w identifier :=
  (upholdsTokenWhere _).either holds fun token => upholdsSomeNode .identifier (.token token)

theorem upholdsLiteralToken : Upholds w literalToken := upholdsAdvance.either holds upholdsLiteral

variable (h : ∀ c, Upholds w (inner c))

include h

theorem upholdsParenthesized : Upholds w (parenthesized inner) :=
  (upholdsExpect "(").bind fun _ => (h .expression).required.bind fun _ => (upholdsExpect ")").bind fun _ => holds

theorem upholdsPrimary (tags : Tags w) : Upholds w (primary inner) := by
  refine upholdsCurrent.either holds fun token => ?_
  dsimp only
  split
  · exact upholdsIdentifier
  split
  · exact upholdsLiteralToken
  split
  · exact (upholdsParenthesized h).deeper.bind fun _ => holds
  have read : Upholds w get := fun _ _ _ watched => watched
  refine read.bind fun _ => ?_
  split
  · exact (upholdsFragment h).either (upholdsElement h tags) fun _ => holds
  · exact holds

theorem upholdsSuffix (object : Node) : Upholds w (suffix inner object) := by
  have member : ∀ property computed, Upholds w (completeMember object property computed) :=
    fun _ _ => upholdsNode .member (.node object)
  have computed : Upholds w (computedProperty inner) :=
    (h .expression).required.bind fun _ => (upholdsExpect "]").bind fun _ => holds
  have arguments : Upholds w (arguments inner) :=
    (upholdsSeparatedList (h .expression) [","]).bind fun _ => (upholdsExpect ")").bind fun _ => holds
  have called : Upholds w (call inner object) := arguments.deeper.bind fun _ => upholdsNode .call (.node object)
  refine (upholdsConsume ["."]).either ?_ fun _ => ?_
  · refine (upholdsConsume ["["]).either ?_ fun _ => ?_
    · exact (upholdsConsume ["("]).either holds fun _ => called.bind fun _ => holds
    · exact computed.deeper.bind fun _ => (member _ _).bind fun _ => holds
  · exact upholdsIdentifier.required.bind fun _ => (member _ _).bind fun _ => holds

theorem upholdsUnary (tags : Tags w) : Upholds w (unary inner) := by
  have chain : Upholds w (callOrMember inner) :=
    (upholdsPrimary h tags).either holds fun _ => (upholdsGrow (upholdsSuffix h) _).bind fun _ => holds
  refine (upholdsConsume prefixOperators).either chain fun operator => ?_
  exact (h .unary).deeper.either upholdsFailUnexpected fun _ => upholdsSomeNode .unary (.token operator)

theorem upholdsExpression (tags : Tags w) : Upholds w (expression inner) := by
  unfold expression
  induction levels with
  | nil => exact upholdsUnary h tags
  | cons level tighter ih => exact upholdsLeftFold ih level.operators level.join

theorem upholdsConstruct (tags : Tags w) (c : Construct) : Upholds w (construct inner c) := by
  cases c with
  | expression => exact upholdsExpression h tags
  | unary => exact upholdsUnary h tags
  | fragment => exact upholdsFragment h
  | element => exact upholdsElement h tags

end Expressions

theorem upholdsWithin (tags : Tags w) (budget : Nat) (c : Construct) : Upholds w (within budget c) := by
  induction budget generalizing c with
  | zero => exact upholdsThrow fun _ => trivial
  | succ budget ih => exact upholdsConstruct ih tags c

end Grammar

namespace Parser

variable {w : Watch}

theorem upholdsWholeExpression (tags : Grammar.Tags w) : Upholds w wholeExpression := by
  have whole : Upholds w (rule .expression) := fun _ _ p =>
    Grammar.upholdsWithin tags (p.scanner.cursor.rest.length + 1) .expression p
  refine whole.required.bind fun _ => upholdsAtEnd.bind fun _ => ?_
  split
  · exact holds
  · exact upholdsFailUnexpected

end Parser

end JsxTree
