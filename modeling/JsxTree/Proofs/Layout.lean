import JsxTree.Proofs.Derivation

/-! How nodes lie in the text. A forest is laid out between two cursors when its nodes follow one
another there, and the children of each lie between the ends of the node in the same way. -/
namespace JsxTree

def Form.leafText {α : Type} : Form α → Option String
  | jsxIdentifier name | identifier name => some name
  | literal _ raw | jsxText _ raw => some raw
  | emptyExpression => some ""
  | _ => none

inductive Laid (file : Option String) : Cursor → List Node → Cursor → Prop where
  | nil {a b} (gap : a.Reaches b) : Laid file a [] b
  | cons {a s e b form ns} (gap : a.Reaches s) (inside : s.Reaches e)
      (exact : ∀ text, form.leafText = some text → s.Traces text.toList e)
      (children : Laid file s form.children e) (rest : Laid file e ns b) :
      Laid file a (⟨form, s.position, e.position, file⟩ :: ns) b

namespace Laid

variable {file : Option String} {a b c : Cursor} {ns ms : List Node} {n : Node}

theorem reaches (h : Laid file a ns b) : a.Reaches b := by
  induction h with
  | nil gap => exact gap
  | cons gap inside _ _ _ _ ih => exact (gap.trans inside).trans ih

theorem after (before : a.Reaches b) (h : Laid file b ns c) : Laid file a ns c := by
  cases h with
  | nil gap => exact .nil (before.trans gap)
  | cons gap inside exact children rest => exact .cons (before.trans gap) inside exact children rest

theorem append (h : Laid file a ns b) (h' : Laid file b ms c) : Laid file a (ns ++ ms) c := by
  induction h with
  | nil gap => exact h'.after gap
  | cons gap inside exact children _ _ ih => exact .cons gap inside exact children (ih h')

theorem upTo (h : Laid file a ns b) (later : b.Reaches c) : Laid file a ns c := by
  simpa using h.append (.nil later)

theorem above {form : Form Node} (leafless : form.leafText = none) (children : Laid file a form.children b) :
    Laid file a [⟨form, a.position, b.position, file⟩] b :=
  .cons a.reachesRefl children.reaches (fun text leaf => by rw [leafless] at leaf; cases leaf) children
    (.nil b.reachesRefl)

theorem leaf {form : Form Node} {text : String} (traced : a.Traces text.toList b)
    (leaf : form.leafText = some text) (childless : form.children = []) :
    Laid file a [⟨form, a.position, b.position, file⟩] b := by
  refine .cons a.reachesRefl traced.reaches ?_ (by rw [childless]; exact .nil traced.reaches)
    (.nil b.reachesRefl)
  intro text' same
  rw [leaf] at same
  cases Option.some.inj same
  exact traced

theorem token {form : Form Node} {m : Mode} {k : Token.Kind} (next : a.next? m = some (k, b))
    (text : form.leafText = some k.text) (childless : form.children = []) :
    Laid file a [⟨form, a.spanTo b file⟩] b :=
  (leaf (Cursor.nextTraces next).1 text childless).after a.reachesSkip

theorem extend {form : Form Node} (h : Laid file a [n] b) (leafless : form.leafText = none)
    (children : ∀ s, Laid file s [n] b → Laid file s form.children c) :
    Laid file a [⟨form, n.spanUpTo c file⟩] c := by
  cases h with
  | @cons _ s e _ own _ gap inside exact below rest =>
      have row := children s (.cons s.reachesRefl inside exact below rest)
      exact (above leafless row).after gap

theorem ordered (h : Laid file a [n] b) : n.span.start ≤ b.position := by
  cases h with
  | cons gap inside exact below rest => exact (inside.trans rest.reaches).position

end Laid

namespace Grammar

open Cursor JsxTree.Parser

variable {file : Option String} {x : Setting} {ph : Phrase} {m : Mode} {d : Nat} {c c' : Cursor}

theorem ReadsMembers.reaches {object n : Node} (h : ReadsMembers file object c n c') : c.Reaches c' := by
  induction h with
  | stop => exact reachesRefl _
  | step dot own _ ih => exact ((nextAdvances dot).then ((nextAdvances own).then ih).reaches).reaches

theorem ReadsName.advances {chained : Bool} {n : Node} (h : ReadsName file chained n c c') : c.Advances c' := by
  cases h with
  | simple own => exact nextAdvances own
  | chain own _ members => exact (nextAdvances own).then members.reaches
  | namespaced space colon own =>
      exact (nextAdvances space).then ((nextAdvances colon).then (nextAdvances own).reaches).reaches

def Phrase.Goes : Phrase → Cursor → Cursor → Prop
  | .suffixes _ _, c, c' | .operands _ _ _ _, c, c' | .moreArguments _, c, c' | .arguments _, c, c'
  | .attributes _, c, c' | .children _, c, c' => c.Reaches c'
  | _, c, c' => c.Advances c'

theorem Reads.goes (h : Reads x ph m d c c') : ph.Goes c c' := by
  induction h with
  | identifier h | literal h | stringValue h => exact nextAdvances h
  | parenthesized opens _ _ closes ih => exact (nextAdvances opens).then (ih.reaches.trans (nextReaches closes))
  | fragmentPrimary _ _ ih | elementPrimary _ _ ih | plainUnary _ _ ih | bottom _ ih | fragmentValue _ ih
  | elementValue _ ih | fragmentChild _ _ ih | elementChild _ _ ih => exact ih
  | noSuffix | noOperand | noMoreArguments | noArguments | noAttribute | noChild => exact reachesRefl _
  | memberSuffix dot own _ ih => exact (nextReaches dot).trans ((nextReaches own).trans ih)
  | computedSuffix opens _ _ closes _ inside ih =>
      exact (nextReaches opens).trans (inside.reaches.trans ((nextReaches closes).trans ih))
  | callSuffix opens _ _ closes _ inside ih =>
      exact (nextReaches opens).trans (inside.trans ((nextReaches closes).trans ih))
  | chain _ _ first more | level _ _ first more => exact first.then more
  | unary operator _ _ _ ih => exact (nextAdvances operator).then ih.reaches
  | operand operator _ _ _ ih more => exact (nextReaches operator).trans (ih.reaches.trans more)
  | moreArguments comma _ _ item more => exact (nextReaches comma).trans (item.reaches.trans more)
  | arguments _ _ first more | attributes _ _ first more | children _ _ first more =>
      exact first.reaches.trans more
  | fragment _ _ _ opens opened _ closes slash closed inside =>
      exact (nextAdvances opens).then ((nextReaches opened).trans (inside.trans ((nextReaches closes).trans
        ((nextReaches slash).trans (nextReaches closed)))))
  | selfClosing _ _ _ opens name _ slash closed attributes =>
      exact (nextAdvances opens).then (name.advances.reaches.trans (attributes.trans
        ((nextReaches slash).trans (nextReaches closed))))
  | element _ _ _ opens name _ opened _ closes slash closing closed _ attributes inside =>
      exact (nextAdvances opens).then (name.advances.reaches.trans (attributes.trans ((nextReaches opened).trans
        (inside.trans ((nextReaches closes).trans ((nextReaches slash).trans (closing.advances.reaches.trans
          (nextReaches closed))))))))
  | containerValue opens _ closes ih | containerChild _ opens _ closes ih =>
      exact (nextAdvances opens).then (ih.reaches.trans (nextReaches closes))
  | spreadAttribute opens dots _ closes ih | spreadChild _ opens dots _ closes ih =>
      exact (nextAdvances opens).then ((nextReaches dots).trans (ih.reaches.trans (nextReaches closes)))
  | plainAttribute name => exact name.advances
  | valuedAttribute name equals _ ih => exact name.advances.then ((nextReaches equals).trans ih.reaches)
  | text run => exact (textTraces run).1.advances (textTraces run).2
  | emptyChild _ opens closes => exact (nextAdvances opens).then (nextReaches closes)

theorem ReadsMembers.laid {object n : Node} {a : Cursor} (h : ReadsMembers file object c n c')
    (before : Laid file a [object] c) : Laid file a [n] c' := by
  induction h with
  | stop => exact before
  | step dot own _ ih =>
      exact ih (before.extend rfl fun s row => row.append ((Laid.token own rfl rfl).after (nextReaches dot)))

theorem ReadsName.laid {chained : Bool} {n : Node} (h : ReadsName file chained n c c') :
    Laid file c [n] c' := by
  cases h with
  | simple own => exact .token own rfl rfl
  | chain own _ members => exact members.laid (.token own rfl rfl)
  | @namespaced _ s t _ c₁ c₂ _ space colon own =>
      have first : Laid file c [⟨.jsxIdentifier s, c.spanTo c₁ file⟩] c₁ := .token space rfl rfl
      exact first.extend rfl fun s row =>
        row.append ((Laid.token own rfl rfl).after (nextReaches colon))

def Phrase.Lies (file : Option String) : Phrase → Cursor → Cursor → Prop
  | .suffixes left n, c, c' | .operands _ _ left n, c, c' => ∀ a, Laid file a [left] c → Laid file a [n] c'
  | .moreArguments ns, c, c' | .arguments ns, c, c' | .attributes ns, c, c' | .children ns, c, c' =>
      Laid file c ns c'
  | .primary n, c, c' | .chain n, c, c' | .unary n, c, c' | .ladder _ n, c, c' | .fragment n, c, c'
  | .element n, c, c' | .attributeValue n, c, c' | .attribute n, c, c' | .child n, c, c' =>
      Laid file c [n] c'

theorem presentNodes (ns : List Node) : (Slot.ofLists (presentList ns)).nodes = ns := by
  cases ns <;> rfl

theorem childrenCall (callee : Node) (ns : List Node) : (Form.call callee ns).children = callee :: ns := by
  simp [Form.children, Form.slots, Slot.nodes]

theorem childrenFragment (opening closing : Node) (ns : List Node) :
    (Form.fragment opening closing (presentList ns)).children = opening :: (ns ++ [closing]) := by
  simp [Form.children, Form.slots, Slot.nodesSingle, presentNodes]

theorem childrenOpening (own : Node) (as : List Node) (selfClosing : Bool) :
    (Form.openingElement own (presentList as) selfClosing).children = own :: as := by
  simp [Form.children, Form.slots, Slot.nodesSingle, presentNodes]

theorem childrenElement (opening closing : Node) (ns : List Node) :
    (Form.element opening (some closing) (presentList ns)).children = opening :: (ns ++ [closing]) := by
  simp [Form.children, Form.slots, Slot.ofOption, Slot.nodesSingle, presentNodes]

theorem laidFrom {form : Form Node} {k : Token.Kind} {c₁ : Cursor} (first : c.next? m = some (k, c₁))
    (leafless : form.leafText = none) (children : Laid file c₁ form.children c') :
    Laid file c.skip [⟨form, c.spanTo c' file⟩] c' :=
  .above leafless (children.after (skipReaches first))

theorem laidAfter {form : Form Node} {k : Token.Kind} {c₁ : Cursor} (first : c.next? m = some (k, c₁))
    (leafless : form.leafText = none) (children : Laid file c₁ form.children c') :
    Laid file c [⟨form, c.spanTo c' file⟩] c' :=
  (laidFrom first leafless children).after c.reachesSkip

theorem Reads.laid (h : Reads x ph m d c c') : ph.Lies x.file c c' := by
  induction h with
  | identifier next => exact Laid.token next rfl rfl
  | literal next => exact Laid.token next rfl rfl
  | stringValue next => exact Laid.token next rfl rfl
  | parenthesized opens _ _ closes ih => exact (ih.after (nextReaches opens)).upTo (nextReaches closes)
  | fragmentPrimary _ _ ih | elementPrimary _ _ ih | plainUnary _ _ ih | bottom _ ih | fragmentValue _ ih
  | elementValue _ ih | fragmentChild _ _ ih | elementChild _ _ ih => exact ih
  | noSuffix | noOperand => exact fun a row => row
  | noMoreArguments | noArguments | noAttribute | noChild => exact .nil (reachesRefl _)
  | memberSuffix dot own _ ih =>
      exact fun a row => ih a (row.extend rfl fun s row =>
        row.append ((Laid.token own rfl rfl).after (nextReaches dot)))
  | computedSuffix opens _ _ closes _ inside ih =>
      exact fun a row => ih a (row.extend rfl fun s row =>
        row.append ((inside.after (nextReaches opens)).upTo (nextReaches closes)))
  | callSuffix opens _ _ closes _ inside ih =>
      exact fun a row => ih a (row.extend rfl fun s row => by
        rw [childrenCall]; exact row.append ((inside.after (nextReaches opens)).upTo (nextReaches closes)))
  | chain _ _ first more | level _ _ first more => exact more _ first
  | unary operator _ _ _ ih => exact laidAfter operator rfl ih
  | @operand _ _ level _ _ _ _ _ _ _ _ _ operator _ _ _ ih more =>
      refine fun a row => more a (row.extend ?_ fun s row => ?_)
      · cases level.join <;> rfl
      · have both := row.append (ih.after (nextReaches operator))
        cases level.join <;> exact both
  | moreArguments comma _ _ item more => exact (item.after (nextReaches comma)).append more
  | arguments _ _ first more | attributes _ _ first more | children _ _ first more => exact first.append more
  | @fragment _ _ ns c b _ c₁ c₂ c₃ c₄ c₅ c' _ _ _ opens opened _ closes slash closed inside =>
      have opening : Laid x.file c.skip [⟨.openingFragment, c.spanTo c₂ x.file⟩] c₂ :=
        laidFrom opens rfl (.nil (nextReaches opened))
      have closing : Laid x.file c₃ [⟨.closingFragment, c₃.spanTo c' x.file⟩] c' :=
        laidAfter closes rfl (.nil ((nextReaches slash).trans (nextReaches closed)))
      refine (Laid.above rfl ?_).after c.reachesSkip
      rw [childrenFragment]
      exact opening.append (inside.append closing)
  | @selfClosing _ _ own as c _ _ _ _ _ c' _ _ _ opens name _ slash closed attributes =>
      have opening : Laid x.file c.skip [⟨.openingElement own (presentList as) true, c.spanTo c' x.file⟩] c' := by
        refine laidFrom opens rfl ?_
        rw [childrenOpening]
        exact (name.laid.append attributes).upTo ((nextReaches slash).trans (nextReaches closed))
      exact (Laid.above rfl opening).after c.reachesSkip
  | @element _ _ own as ns closing c _ _ _ _ c₄ c₅ c₆ c₇ c₈ c' _ _ _ opens name _ opened _ closes slash
      closingName closed _ attributes inside =>
      have opening : Laid x.file c.skip [⟨.openingElement own (presentList as) false, c.spanTo c₄ x.file⟩] c₄ := by
        refine laidFrom opens rfl ?_
        rw [childrenOpening]
        exact (name.laid.append attributes).upTo (nextReaches opened)
      have ending : Laid x.file c₅ [⟨.closingElement closing, c₅.spanTo c' x.file⟩] c' :=
        laidAfter closes rfl ((closingName.laid.after (nextReaches slash)).upTo (nextReaches closed))
      refine (Laid.above rfl ?_).after c.reachesSkip
      rw [childrenElement]
      exact opening.append (inside.append ending)
  | containerValue opens _ closes ih | containerChild _ opens _ closes ih =>
      exact laidAfter opens rfl (ih.upTo (nextReaches closes))
  | spreadAttribute opens dots _ closes ih | spreadChild _ opens dots _ closes ih =>
      exact laidAfter opens rfl ((ih.after (nextReaches dots)).upTo (nextReaches closes))
  | plainAttribute name => exact name.laid.extend rfl fun s row => row
  | valuedAttribute name equals _ ih =>
      exact name.laid.extend rfl fun s row => row.append (ih.after (nextReaches equals))
  | text run => exact Laid.leaf (textTraces run).1 rfl rfl
  | @emptyChild _ _ c₁ _ _ opens closes =>
      have empty : Laid x.file c₁ [⟨.emptyExpression, c₁.position, c₁.position, x.file⟩] c₁ :=
        .leaf ⟨rfl, rfl⟩ rfl rfl
      exact laidAfter opens rfl (empty.upTo (nextReaches closes))

def startsExpression : Token.Kind → Bool
  | .identifier _ => true
  | .punctuator o => o == "(" || o == "<" || prefixOperators.contains o
  | k => k.isLiteral

theorem takesAlike {m' : Mode} {o : String} {b b' : Cursor} (h : c.Takes m o b) (h' : c.Takes m' o b') :
    b = b' := by
  obtain ⟨⟨rest, place⟩, -⟩ := nextTraces h
  obtain ⟨⟨rest', place'⟩, -⟩ := nextTraces h'
  cases b; cases b'
  simp only [Cursor.mk.injEq]
  exact ⟨place.trans place'.symm, List.append_cancel_left (rest.symm.trans rest')⟩

def Phrase.Begins (m : Mode) (c c' : Cursor) : Phrase → Prop
  | .primary _ | .chain _ | .unary _ | .ladder _ _ =>
      ∃ k c₁, c.next? m = some (k, c₁) ∧ startsExpression k = true ∧ c₁.Reaches c'
  | .fragment _ | .element _ => ∃ c₁, c.Takes m "<" c₁ ∧ c₁.Reaches c'
  | _ => True

theorem startsLiteral {k : Token.Kind} {v : Value} (h : literalValue? k = some v) : startsExpression k = true := by
  cases k <;> simp_all [literalValue?, startsExpression, Token.Kind.isLiteral]

theorem Reads.begins (h : Reads x ph m d c c') : ph.Begins m c c' := by
  induction h with
  | identifier next => exact ⟨_, _, next, rfl, reachesRefl _⟩
  | literal next value => exact ⟨_, _, next, startsLiteral value, reachesRefl _⟩
  | parenthesized opens _ inside closes =>
      exact ⟨_, _, opens, rfl, inside.goes.reaches.trans (nextReaches closes)⟩
  | fragmentPrimary _ _ ih | elementPrimary _ _ ih =>
      obtain ⟨c₁, less, reaches⟩ := ih
      exact ⟨_, c₁, less, rfl, reaches⟩
  | chain _ more ih _ | level _ more ih _ =>
      obtain ⟨k, c₁, next, starts, reaches⟩ := ih
      exact ⟨k, c₁, next, starts, reaches.trans more.goes⟩
  | plainUnary _ _ ih | bottom _ ih => exact ih
  | @unary _ _ o _ _ _ _ operator known _ operand =>
      refine ⟨_, _, operator, ?_, operand.goes.reaches⟩
      simp [startsExpression, known]
  | fragment less _ _ opens opened inside closes slash closed =>
      obtain rfl := takesAlike less opens
      exact ⟨_, less, (nextReaches opened).trans (inside.goes.trans ((nextReaches closes).trans
        ((nextReaches slash).trans (nextReaches closed))))⟩
  | selfClosing less _ _ opens name attributes slash closed =>
      obtain rfl := takesAlike less opens
      exact ⟨_, less, name.advances.reaches.trans (attributes.goes.trans
        ((nextReaches slash).trans (nextReaches closed)))⟩
  | element less _ _ opens name attributes opened inside closes slash closing closed =>
      obtain rfl := takesAlike less opens
      exact ⟨_, less, name.advances.reaches.trans (attributes.goes.trans ((nextReaches opened).trans
        (inside.goes.trans ((nextReaches closes).trans ((nextReaches slash).trans
          (closing.advances.reaches.trans (nextReaches closed)))))))⟩
  | _ => trivial

end Grammar

end JsxTree
