import JsxTree.Node.Source
import JsxTree.Proofs.Formed

/-! The normal form as text to be read: what it is made of, kind by kind, and the tokens that a cursor
finds in it. -/
namespace JsxTree

namespace Node

def chars (n : Node) : List Char := n.source.toList

def moreChars (ns : List Node) : List Char := ns.flatMap fun n => ',' :: ' ' :: n.chars

def argumentChars : List Node → List Char
  | [] => []
  | n :: ns => n.chars ++ moreChars ns

def attributeChars (as : List Node) : List Char := as.flatMap fun a => ' ' :: a.chars

def childChars (ns : List Node) : List Char := ns.flatMap chars

section Chars

variable {object property value opening closing own left right : Node} {ns as : List Node} {o s raw : String} {span span' : Span}

theorem sourceEq (form : Form Node) (span : Span) : (⟨form, span⟩ : Node).source = (form.map source).source := by
  rw [source, foldEq]
  rfl

theorem charsIdentifier : (⟨.identifier s, span⟩ : Node).chars = s.toList := by rw [chars, sourceEq]; rfl

theorem charsJsxIdentifier : (⟨.jsxIdentifier s, span⟩ : Node).chars = s.toList := by rw [chars, sourceEq]; rfl

theorem charsLiteral {v : Value} : (⟨.literal v raw, span⟩ : Node).chars = raw.toList := by rw [chars, sourceEq]; rfl

theorem charsText {v : String} : (⟨.jsxText v raw, span⟩ : Node).chars = raw.toList := by rw [chars, sourceEq]; rfl

theorem charsUnary {l : Bool} : (⟨.unary o l object, span⟩ : Node).chars = o.toList ++ object.chars := by
  rw [chars, sourceEq]
  exact String.toList_append

theorem charsJoin (join : Parser.Join) : (⟨join.form o left right, span⟩ : Node).chars =
    '(' :: (left.chars ++ (' ' :: (o.toList ++ (' ' :: (right.chars ++ [')']))))) := by
  rw [chars, sourceEq]
  have joined : ((join.form o left right).map source).source =
      "(" ++ left.source ++ " " ++ o ++ " " ++ right.source ++ ")" := by cases join <;> rfl
  simp [joined, chars]

theorem charsMember : (⟨.member object ⟨.identifier s, span'⟩ false, span⟩ : Node).chars =
    object.chars ++ ('.' :: s.toList) := by
  rw [chars, sourceEq]
  change (object.source ++ "." ++ (⟨.identifier s, span'⟩ : Node).source).toList = _
  simp [chars, show (⟨.identifier s, span'⟩ : Node).source = s from sourceEq _ _]

theorem charsComputed : (⟨.member object property true, span⟩ : Node).chars =
    object.chars ++ ('[' :: (property.chars ++ [']'])) := by
  rw [chars, sourceEq]
  change (object.source ++ "[" ++ property.source ++ "]").toList = _
  simp [chars]

theorem charsArguments (ns : List Node) : (", ".intercalate (ns.map source)).toList = argumentChars ns := by
  cases ns with
  | nil => rfl
  | cons n ns =>
      induction ns generalizing n with
      | nil => simp [argumentChars, moreChars, chars]
      | cons m ns ih =>
          have more := ih m
          rw [List.map_cons] at more
          rw [List.map_cons, List.map_cons, String.intercalate_cons_of_ne_nil (List.cons_ne_nil _ _),
            String.toList_append, String.toList_append, more]
          simp [argumentChars, moreChars, chars]

theorem charsCall : (⟨.call object ns, span⟩ : Node).chars = object.chars ++ ('(' :: (argumentChars ns ++ [')'])) := by
  rw [chars, sourceEq]
  change (object.source ++ "(" ++ ", ".intercalate (ns.map source) ++ ")").toList = _
  simp [chars, ← charsArguments]

theorem concatPresent (f : Node → String) (ns : List Node) :
    (Form.concat ((Grammar.presentList ns).map (List.map f))).toList = ns.flatMap fun n => (f n).toList := by
  cases ns with
  | nil => rfl
  | cons n ns => simp [Grammar.presentList, Form.concat, List.flatMap_map]

theorem concatChildren (ns : List Node) :
    (Form.concat ((Grammar.presentList ns).map (List.map source))).toList = childChars ns := concatPresent source ns

theorem charsFragment : (⟨.fragment opening closing (Grammar.presentList ns), span⟩ : Node).chars =
    '<' :: '>' :: (childChars ns ++ ['<', '/', '>']) := by
  rw [chars, sourceEq]
  change ("<>" ++ Form.concat ((Grammar.presentList ns).map (List.map source)) ++ "</>").toList = _
  rw [String.toList_append, String.toList_append, concatChildren]
  rfl

theorem charsOpening (selfClosing : Bool) :
    (⟨.openingElement own (Grammar.presentList as) selfClosing, span⟩ : Node).chars =
      '<' :: (own.chars ++ (attributeChars as ++ (if selfClosing then [' ', '/', '>'] else ['>']))) := by
  have listed : (Form.concat (((Grammar.presentList as).map (List.map source)).map (List.map (" " ++ ·)))).toList =
      attributeChars as := by
    have each : (List.map (" " ++ ·) ∘ List.map source : List Node → List String) = List.map (fun n => " " ++ n.source) :=
      funext fun ns => List.map_map
    rw [Option.map_map, each, concatPresent]
    simp [attributeChars, chars]
  rw [chars, sourceEq]
  change ("<" ++ own.source ++ Form.concat (((Grammar.presentList as).map (List.map source)).map (List.map (" " ++ ·))) ++
    (if selfClosing then " />" else ">")).toList = _
  rw [String.toList_append, String.toList_append, String.toList_append, listed]
  cases selfClosing <;> simp [chars]

theorem charsClosing : (⟨.closingElement own, span⟩ : Node).chars = '<' :: '/' :: (own.chars ++ ['>']) := by
  rw [chars, sourceEq]
  change ("</" ++ own.source ++ ">").toList = _
  simp [chars]

theorem charsSelfClosing : (⟨.element ⟨.openingElement own (Grammar.presentList as) true, span'⟩ none none, span⟩ :
    Node).chars = '<' :: (own.chars ++ (attributeChars as ++ [' ', '/', '>'])) := by
  have opening := @charsOpening own as span' true
  rw [chars, sourceEq]
  change ((⟨.openingElement own (Grammar.presentList as) true, span'⟩ : Node).source ++ "" ++ "").toList = _
  simpa [chars] using opening

theorem charsElement {span'' : Span} : (⟨.element ⟨.openingElement own (Grammar.presentList as) false, span'⟩
      (some ⟨.closingElement closing, span''⟩) (Grammar.presentList ns), span⟩ : Node).chars =
    '<' :: (own.chars ++ (attributeChars as ++ ('>' :: (childChars ns ++ ('<' :: '/' :: (closing.chars ++ ['>'])))))) := by
  have opened := @charsOpening own as span' false
  have closed := @charsClosing closing span''
  rw [chars] at opened closed
  rw [chars, sourceEq]
  change ((⟨.openingElement own (Grammar.presentList as) false, span'⟩ : Node).source ++
    Form.concat ((Grammar.presentList ns).map (List.map source)) ++ (⟨.closingElement closing, span''⟩ : Node).source).toList = _
  rw [String.toList_append, String.toList_append, opened, closed, concatChildren]
  simp

theorem charsSpreadAttribute : (⟨.spreadAttribute object, span⟩ : Node).chars =
    '{' :: '.' :: '.' :: '.' :: (object.chars ++ ['}']) := by
  rw [chars, sourceEq]
  change ("\x7b..." ++ object.source ++ "\x7d").toList = _
  simp [chars]

theorem charsSpreadChild : (⟨.spreadChild object, span⟩ : Node).chars =
    '{' :: '.' :: '.' :: '.' :: (object.chars ++ ['}']) := by
  rw [chars, sourceEq]
  change ("\x7b..." ++ object.source ++ "\x7d").toList = _
  simp [chars]

theorem charsContainer : (⟨.container object, span⟩ : Node).chars = '{' :: (object.chars ++ ['}']) := by
  rw [chars, sourceEq]
  change ("\x7b" ++ object.source ++ "\x7d").toList = _
  simp [chars]

theorem charsEmpty : (⟨.emptyExpression, span⟩ : Node).chars = [] := by rw [chars, sourceEq]; rfl

theorem charsPlainAttribute : (⟨.jsxAttribute own none, span⟩ : Node).chars = own.chars := by
  rw [chars, sourceEq]
  rfl

theorem charsValuedAttribute : (⟨.jsxAttribute own (some value), span⟩ : Node).chars =
    own.chars ++ ('=' :: value.chars) := by
  rw [chars, sourceEq]
  change (own.source ++ "=" ++ value.source).toList = _
  simp [chars]

theorem charsNamespaced : (⟨.namespacedName opening closing, span⟩ : Node).chars =
    opening.chars ++ (':' :: closing.chars) := by
  rw [chars, sourceEq]
  change (opening.source ++ ":" ++ closing.source).toList = _
  simp [chars]

theorem charsJsxMember : (⟨.jsxMember object property, span⟩ : Node).chars =
    object.chars ++ ('.' :: property.chars) := by
  rw [chars, sourceEq]
  change (object.source ++ "." ++ property.source).toList = _
  simp [chars]

end Chars

end Node

end JsxTree
