import JsxTree.Proofs.Lexemes
import JsxTree.Proofs.Shape

/-! Trees as the grammar has them, with no text to read them from: every node stands where such a node
may stand, and every name, literal and run of text is one that can be read there. -/
namespace JsxTree

inductive Role where
  | expression
  | markup (m : Mode)
  | value
  | attribute
  | child
  deriving DecidableEq, Repr

inductive NameChain : Node → Prop where
  | own {s span} (token : Lexeme.Whole .jsx (.jsxIdentifier s)) : NameChain ⟨.jsxIdentifier s, span⟩
  | member {object s span span'} (before : NameChain object) (token : Lexeme.Whole .jsx (.jsxIdentifier s)) :
      NameChain ⟨.jsxMember object ⟨.jsxIdentifier s, span'⟩, span⟩

inductive NameFormed : Bool → Node → Prop where
  | simple {s span} (token : Lexeme.Whole .jsx (.jsxIdentifier s)) : NameFormed false ⟨.jsxIdentifier s, span⟩
  | chain {n} (members : NameChain n) : NameFormed true n
  | namespaced {chained s t span span' span''} (space : Lexeme.Whole .jsx (.jsxIdentifier s))
      (own : Lexeme.Whole .jsx (.jsxIdentifier t)) :
      NameFormed chained ⟨.namespacedName ⟨.jsxIdentifier s, span⟩ ⟨.jsxIdentifier t, span'⟩, span''⟩

def runsOnTag (e : Char) : Bool := e == '=' || e == '>'

/-- Text that comes first among the children leaves the tag in front of it alone. -/
def TagStands (m : Mode) : List Node → Prop
  | ⟨.jsxText _ raw, _⟩ :: _ => m = .script → Lexeme.Avoids runsOnTag raw.toList
  | _ => True

inductive Formed : Role → Node → Prop where
  | identifier {s span} (token : Lexeme.Whole .script (.identifier s)) : Formed .expression ⟨.identifier s, span⟩
  | literal {k v span} (token : Lexeme.Whole .script k) (value : Grammar.literalValue? k = some v) :
      Formed .expression ⟨.literal v k.text, span⟩
  | unary {o a span} (known : o ∈ Grammar.prefixOperators) (argument : Formed .expression a) :
      Formed .expression ⟨.unary o true a, span⟩
  | join {level o l r span} (level? : level ∈ Grammar.levels) (known : o ∈ level.operators)
      (left : Formed .expression l) (right : Formed .expression r) :
      Formed .expression ⟨level.join.form o l r, span⟩
  | member {object s span span'} (before : Formed .expression object) (token : Lexeme.Whole .script (.identifier s)) :
      Formed .expression ⟨.member object ⟨.identifier s, span'⟩ false, span⟩
  | computed {object property span} (before : Formed .expression object) (inside : Formed .expression property) :
      Formed .expression ⟨.member object property true, span⟩
  | call {callee ns span} (before : Formed .expression callee) (inside : ∀ n ∈ ns, Formed .expression n) :
      Formed .expression ⟨.call callee ns, span⟩
  | expressionMarkup {n} (tagged : Formed (.markup .script) n) : Formed .expression n
  | fragment {m ns span span' span''} (inside : ∀ n ∈ ns, Formed .child n) (apart : TextsApart ns)
      (stands : TagStands m ns) : Formed (.markup m) ⟨.fragment ⟨.openingFragment, span⟩ ⟨.closingFragment, span'⟩
        (Grammar.presentList ns), span''⟩
  | selfClosing {m own as span span'} (name : NameFormed true own) (attributes : ∀ a ∈ as, Formed .attribute a) :
      Formed (.markup m) ⟨.element ⟨.openingElement own (Grammar.presentList as) true, span⟩ none none, span'⟩
  | element {m own as ns closing span span' span''} (name : NameFormed true own)
      (attributes : ∀ a ∈ as, Formed .attribute a) (inside : ∀ n ∈ ns, Formed .child n) (apart : TextsApart ns)
      (closingName : NameFormed true closing) (same : own.sameName closing = true) :
      Formed (.markup m) ⟨.element ⟨.openingElement own (Grammar.presentList as) false, span⟩
        (some ⟨.closingElement closing, span'⟩) (Grammar.presentList ns), span''⟩
  | stringValue {raw span} (token : Lexeme.Whole .jsx (.stringLiteral raw)) :
      Formed .value ⟨.literal (.string (Literal.unquote raw)) raw, span⟩
  | containerValue {n span} (inside : Formed .expression n) : Formed .value ⟨.container n, span⟩
  | markupValue {n} (tagged : Formed (.markup .jsx) n) : Formed .value n
  | spreadAttribute {n span} (inside : Formed .expression n) : Formed .attribute ⟨.spreadAttribute n, span⟩
  | plainAttribute {own span} (name : NameFormed false own) : Formed .attribute ⟨.jsxAttribute own none, span⟩
  | valuedAttribute {own value span} (name : NameFormed false own) (assigned : Formed .value value) :
      Formed .attribute ⟨.jsxAttribute own (some value), span⟩
  | text {raw span} (nonempty : raw.toList ≠ []) (plain : ∀ e ∈ raw.toList, Lexeme.endsText e = false) :
      Formed .child ⟨.jsxText raw raw, span⟩
  | markupChild {n} (tagged : Formed (.markup .jsx) n) : Formed .child n
  | emptyChild {span span'} : Formed .child ⟨.container ⟨.emptyExpression, span⟩, span'⟩
  | containerChild {n span} (inside : Formed .expression n) : Formed .child ⟨.container n, span⟩
  | spreadChild {n span} (inside : Formed .expression n) : Formed .child ⟨.spreadChild n, span⟩

namespace Grammar

open Cursor Lexeme JsxTree.Parser

variable {file : Option String} {x : Setting} {ph : Phrase} {m : Mode} {d : Nat} {c c' : Cursor} {k : Token.Kind}

theorem wholeNext (next : c.next? m = some (k, c')) (valid : k.isInvalid = false) : Whole m k := by
  simp only [Cursor.next?, Option.map_eq_some_iff, Prod.mk.injEq] at next
  obtain ⟨l, found, rfl, -⟩ := next
  exact wholeOf found valid

theorem ReadsMembers.formed {object n : Node} (h : ReadsMembers file object c n c') (before : NameChain object) :
    NameChain n := by
  induction h with
  | stop => exact before
  | step dot own _ ih => exact ih (.member before (wholeNext own rfl))

theorem ReadsName.formed {chained : Bool} {n : Node} (h : ReadsName file chained n c c') : NameFormed chained n := by
  cases h with
  | simple own => exact .simple (wholeNext own rfl)
  | chain own _ members => exact .chain (members.formed (.own (wholeNext own rfl)))
  | namespaced space _ own => exact .namespaced (wholeNext space rfl) (wholeNext own rfl)

theorem tagStands (greater : c.Takes .script ">" c') : Avoids runsOnTag c'.rest := by
  obtain ⟨⟨rest, -⟩, -⟩ := nextTraces greater
  simp only [Cursor.Takes, Cursor.next?, Option.map_eq_some_iff, Prod.mk.injEq] at greater
  obtain ⟨l, found, kind, -⟩ := greater
  have longer : ∀ p ∈ [">=", ">>"], p.toList <+: c.skip.rest → False := by
    intro p member front
    have known : ∀ p ∈ [">=", ">>"], p ∈ punctuators .script ∧ 1 < p.toList.length := by decide
    have short := punctuatorLongest (punctuatorOf found kind) (known p member).1 front
    exact absurd (known p member).2 (Nat.not_lt_of_le short)
  intro e head
  refine Bool.eq_false_iff.mpr fun runs => ?_
  cases tail : c'.rest with
  | nil => rw [tail] at head; cases head
  | cons e' es =>
      rw [tail] at head rest
      cases head
      simp only [runsOnTag, Bool.or_eq_true, beq_iff_eq] at runs
      obtain rfl | rfl := runs
      · exact longer ">=" (by decide) ⟨es, by rw [rest]; rfl⟩
      · exact longer ">>" (by decide) ⟨es, by rw [rest]; rfl⟩

def Phrase.Forms (m : Mode) : Phrase → Prop
  | .primary n | .chain n | .unary n => m = .script → Formed .expression n
  | .suffixes a n => m = .script → Formed .expression a → Formed .expression n
  | .operands level tighter a n => m = .script → (∀ l ∈ level :: tighter, l ∈ levels) →
      Formed .expression a → Formed .expression n
  | .ladder ls n => m = .script → (∀ l ∈ ls, l ∈ levels) → Formed .expression n
  | .moreArguments ns | .arguments ns => m = .script → ∀ n ∈ ns, Formed .expression n
  | .fragment n | .element n => Formed (.markup m) n
  | .attributeValue n => Formed .value n
  | .attribute n => Formed .attribute n
  | .attributes ns => ∀ n ∈ ns, Formed .attribute n
  | .child n => Formed .child n
  | .children ns => (∀ n ∈ ns, Formed .child n) ∧ TextsApart ns

theorem childrenStand {ns : List Node} {b b' : Cursor} (greater : b.Takes m ">" b') (opened : b.Takes .jsx ">" c)
    (inside : Reads x (.children ns) .jsx d c c') : TagStands m ns := by
  obtain rfl := takesAlike greater opened
  cases inside with
  | noChild => trivial
  | children first _ =>
      cases first with
      | text run =>
          rintro rfl
          have stands := tagStands greater
          intro e head
          refine stands e ?_
          rw [(textTraces run).1.1]
          simp [List.head?_append, head]
      | fragmentChild _ markup => cases markup; trivial
      | elementChild _ markup => cases markup <;> trivial
      | emptyChild | containerChild | spreadChild => trivial

theorem Reads.formed (h : Reads x ph m d c c') : ph.Forms m := by
  induction h with
  | identifier token =>
      rintro rfl
      exact .identifier (wholeNext token rfl)
  | @literal _ _ k _ _ _ token value =>
      rintro rfl
      refine .literal (wholeNext token ?_) value
      cases k <;> first | rfl | cases value
  | parenthesized _ _ _ _ ih => exact fun script => ih script fun _ inside => inside
  | fragmentPrimary _ _ ih | elementPrimary _ _ ih =>
      rintro rfl
      exact .expressionMarkup ih
  | noSuffix => exact fun _ before => before
  | noOperand => exact fun _ _ before => before
  | memberSuffix _ own _ ih =>
      rintro rfl before
      exact ih rfl (.member before (wholeNext own rfl))
  | computedSuffix _ _ _ _ _ ih more =>
      exact fun script before => more script (.computed before (ih script fun _ inside => inside))
  | callSuffix _ _ _ _ _ ih more => exact fun script before => more script (.call before (ih script))
  | chain _ _ ih more => exact fun script => more script (ih script)
  | plainUnary _ _ ih => exact ih
  | unary _ known _ _ ih => exact fun script => .unary known (ih script)
  | operand _ known _ _ ih more =>
      intro script all before
      have right := ih script fun l inside => all l (List.mem_cons_of_mem _ inside)
      exact more script all (.join (all _ List.mem_cons_self) known before right)
  | bottom _ ih => exact fun script _ => ih script
  | level _ _ ih more =>
      intro script all
      exact more script all (ih script fun l inside => all l (List.mem_cons_of_mem _ inside))
  | noMoreArguments | noArguments => exact fun _ => List.forall_mem_nil _
  | moreArguments _ _ _ ih more | arguments _ _ ih more =>
      exact fun script => List.forall_mem_cons.mpr ⟨ih script fun _ inside => inside, more script⟩
  | fragment less greater _ opens opened inside _ _ _ ih =>
      obtain rfl := takesAlike less opens
      exact .fragment ih.1 ih.2 (childrenStand greater opened inside)
  | selfClosing _ _ _ _ name _ _ _ ih => exact .selfClosing name.formed ih
  | element _ _ _ _ name _ _ _ _ _ closingName _ same ih more =>
      exact .element name.formed ih more.1 more.2 closingName.formed same
  | stringValue token => exact .stringValue (wholeNext token rfl)
  | containerValue _ _ _ ih => exact .containerValue (ih rfl fun _ inside => inside)
  | fragmentValue _ ih | elementValue _ ih => exact .markupValue ih
  | spreadAttribute _ _ _ _ ih => exact .spreadAttribute (ih rfl fun _ inside => inside)
  | plainAttribute name => exact .plainAttribute name.formed
  | valuedAttribute name _ _ ih => exact .valuedAttribute name.formed ih
  | noAttribute => exact List.forall_mem_nil _
  | attributes _ _ ih more => exact List.forall_mem_cons.mpr ⟨ih, more⟩
  | text run => exact .text (textTraces run).2 (textPlain run)
  | fragmentChild _ _ ih | elementChild _ _ ih => exact .markupChild ih
  | emptyChild => exact .emptyChild
  | containerChild _ _ _ _ ih => exact .containerChild (ih rfl fun _ inside => inside)
  | spreadChild _ _ _ _ _ ih => exact .spreadChild (ih rfl fun _ inside => inside)
  | noChild => exact ⟨List.forall_mem_nil _, trivial⟩
  | children first more ih ih' =>
      exact ⟨List.forall_mem_cons.mpr ⟨ih, ih'.1⟩, childrenApart first more ih'.2⟩

end Grammar

theorem parseFormed {source : String} {config : Config} {file : Option String} {n : Node}
    (h : parse source config file = .ok n) : Formed .expression n := by
  have reads := Grammar.parseReads source config file
  rw [h] at reads
  obtain ⟨c', reads, -⟩ := reads
  exact reads.formed rfl fun _ inside => inside

end JsxTree
