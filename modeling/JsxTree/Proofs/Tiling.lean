import JsxTree.Proofs.Occurrences
import JsxTree.Proofs.Reread

/-! Markup and the text between its tags. The opening tag, the children and the closing tag follow one another with
nothing in between, so that their texts make up the text of the whole. -/
namespace JsxTree

def Tiles : Position → List Node → Position → Prop
  | p, [], q => p = q
  | p, n :: ns, q => n.span.start = p ∧ Tiles n.span.stop ns q

structure Tiled (source : String) (n : Node) (row : List Node) : Prop where
  tiles : Tiles n.span.start row n.span.stop
  pieces : ∃ texts, List.Forall₂ (fun m text => m.piece? source = some text) row texts ∧
    n.piece? source = some texts.flatten

def Node.closesItself (opening : Node) : Bool :=
  match opening.form with
  | .openingElement _ _ selfClosing => selfClosing
  | _ => false

/-- Markup is tiled by its tags and children, unless it is a single tag. -/
def MarkupTiled (source : String) (n : Node) : Prop :=
  match n.form with
  | .fragment opening closing children => Tiled source n (opening :: (children.getD [] ++ [closing]))
  | .element opening closing children => opening.closesItself = false →
      ∃ ending, closing = some ending ∧ Tiled source n (opening :: (children.getD [] ++ [ending]))
  | _ => True

inductive Strung : Cursor → List Node → Cursor → Prop where
  | nil {a} : Strung a [] a
  | cons {a b c n ns} (start : n.span.start = a.position) (stop : n.span.stop = b.position) (inside : a.Reaches b)
      (more : Strung b ns c) : Strung a (n :: ns) c

namespace Strung

variable {source : String} {file : Option String} {a b c : Cursor} {ns ms : List Node} {n : Node}

theorem append (h : Strung a ns b) (more : Strung b ms c) : Strung a (ns ++ ms) c := by
  induction h with
  | nil => exact more
  | cons start stop inside _ ih => exact .cons start stop inside (ih more)

theorem tiles (h : Strung a ns b) : Tiles a.position ns b.position := by
  induction h with
  | nil => rfl
  | cons start stop _ _ ih => exact ⟨start, stop ▸ ih⟩

theorem pieces (h : Strung a ns b) (within : a.Within source) :
    ∃ texts, List.Forall₂ (fun m text => m.piece? source = some text) ns texts ∧ a.Traces texts.flatten b := by
  induction h with
  | nil => exact ⟨[], .nil, rfl, rfl⟩
  | cons start stop inside more ih =>
      obtain ⟨texts, each, rest, place⟩ := ih (inside.within within)
      obtain ⟨raw, here⟩ := inside
      have piece := within.slice here
      rw [← start, ← stop] at piece
      refine ⟨raw :: texts, .cons piece each, ?_, ?_⟩
      · rw [here.1, rest, List.flatten_cons, List.append_assoc]
      · rw [place, here.2, List.flatten_cons, Place.pastAppend]

theorem tiled (h : Strung a ns b) (within : a.Within source) (start : n.span.start = a.position)
    (stop : n.span.stop = b.position) : Tiled source n ns := by
  obtain ⟨texts, each, traced⟩ := h.pieces within
  have piece := within.slice traced
  have tiles := h.tiles
  rw [← start, ← stop] at piece tiles
  exact ⟨tiles, texts, each, piece⟩

end Strung

namespace Grammar

open Cursor JsxTree.Parser

variable {x : Setting} {m : Mode} {d : Nat} {c c' : Cursor} {n : Node} {ns : List Node} {source : String}

theorem textlessSkip (textless : c.text? = none) : c.skip = c := by
  rw [textNone] at textless
  cases front : c.rest with
  | nil => exact skipSolid (by rw [front]; rfl)
  | cons e es =>
      by_cases less : e = '<'
      · exact skipFirst (by rw [less]; decide) (by rw [less]; decide) front
      · have brace : e = '\x7b' := by simpa [front, Lexeme.endsText, List.takeWhile_cons, less] using textless
        exact skipFirst (by rw [brace]; decide) (by rw [brace]; decide) front

theorem markupSpan (h : Reads x (.fragment n) m d c c' ∨ Reads x (.element n) m d c c') : n.span = c.spanTo c' x.file := by
  cases h with
  | inl h => cases h; rfl
  | inr h => cases h <;> rfl

theorem childSpan (h : Reads x (.child n) m d c c') : n.span.start = c.position ∧ n.span.stop = c'.position := by
  cases h with
  | text => exact ⟨rfl, rfl⟩
  | fragmentChild textless markup =>
      rw [markupSpan (.inl markup), Cursor.spanTo, textlessSkip textless]
      exact ⟨rfl, rfl⟩
  | elementChild textless markup =>
      rw [markupSpan (.inr markup), Cursor.spanTo, textlessSkip textless]
      exact ⟨rfl, rfl⟩
  | emptyChild textless | containerChild textless | spreadChild textless =>
      rw [Cursor.spanTo, textlessSkip textless]
      exact ⟨rfl, rfl⟩

theorem childrenStrung (h : Reads x (.children ns) m d c c') : Strung c ns c' ∧ c'.skip = c' := by
  induction ns generalizing c with
  | nil =>
      cases h with
      | noChild textless => exact ⟨.nil, textlessSkip textless⟩
  | cons n ns ih =>
      cases h with
      | children first more =>
          obtain ⟨strung, solid⟩ := ih more
          obtain ⟨start, stop⟩ := childSpan first
          exact ⟨.cons start stop first.goes.reaches strung, solid⟩

theorem presentGetD (ns : List Node) : (presentList ns).getD [] = ns := by
  cases ns <;> rfl

theorem tagged {opening closing : Node} {c₁ c₂ : Cursor} (within : c.Within source) (start : n.span.start = c.skip.position)
    (stop : n.span.stop = c'.position) (opens : opening.span = c.spanTo c₁ x.file) (tag : c.skip.Reaches c₁)
    (inside : Strung c₁ ns c₂ ∧ c₂.skip = c₂) (closes : closing.span = c₂.spanTo c' x.file) (ending : c₂.Reaches c') :
    Tiled source n (opening :: ((presentList ns).getD [] ++ [closing])) := by
  rw [Cursor.spanTo] at opens
  rw [Cursor.spanTo, inside.2] at closes
  have last : Strung c₂ [closing] c' := .cons (by rw [closes]) (by rw [closes]) ending .nil
  have row : Strung c.skip (opening :: (ns ++ [closing])) c' :=
    .cons (by rw [opens]) (by rw [opens]) tag (inside.1.append last)
  rw [presentGetD]
  exact row.tiled (c.reachesSkip.within within) start stop

theorem fragmentTiled (within : c.Within source) (h : Reads x (.fragment n) m d c c') : MarkupTiled source n := by
  cases h with
  | fragment _ _ _ opens opened inside closes slash closed =>
      exact tagged within rfl rfl rfl ((skipReaches opens).trans (nextReaches opened)) (childrenStrung inside) rfl
        ((nextReaches closes).trans ((nextReaches slash).trans (nextReaches closed)))

theorem elementTiled (within : c.Within source) (h : Reads x (.element n) m d c c') : MarkupTiled source n := by
  cases h with
  | selfClosing => exact fun single => by cases single
  | element _ _ _ opens name attributes opened inside closes slash closingName closed =>
      intro _
      have tag := (skipReaches opens).trans (name.advances.reaches.trans (attributes.goes.trans (nextReaches opened)))
      have ending := (nextReaches slash).trans (closingName.advances.reaches.trans (nextReaches closed))
      exact ⟨_, rfl, tagged within rfl rfl rfl tag (childrenStrung inside) rfl ((nextReaches closes).trans ending)⟩

end Grammar

theorem occursTiled {x : Parser.Setting} {source : String} {n : Node} (h : Grammar.Occurs x source n) :
    MarkupTiled source n := by
  obtain ⟨form, span⟩ := n
  cases form with
  | fragment =>
      obtain ⟨m, d, c, c', within, -, reads⟩ := h
      exact Grammar.fragmentTiled within reads
  | element =>
      obtain ⟨m, d, c, c', within, -, reads⟩ := h
      exact Grammar.elementTiled within reads
  | _ => trivial

/-- In a tree that was parsed no character between the tags of markup is lost, and none belongs to two nodes. -/
theorem markupTiled {source : String} {config : Config} {file : Option String} {n m : Node}
    (accepted : parse source config file = .ok n) (inside : m ∈ n.preorder) : MarkupTiled source m :=
  occursTiled (Grammar.parseSituates accepted m inside)

theorem markupTiledSpaced : ∃ n, parse "<a b> c \x7bd\x7d /* e */ <></> </a>" {} none = .ok n ∧ n ∈ n.preorder ∧
    n.kind = .element ∧ MarkupTiled "<a b> c \x7bd\x7d /* e */ <></> </a>" n := by
  obtain ⟨n, accepted, element⟩ : ∃ n, parse "<a b> c \x7bd\x7d /* e */ <></> </a>" {} none = .ok n ∧
      (n.kind == .element) = true := Parser.acceptedOf (by decide +kernel)
  exact ⟨n, accepted, n.preorderItself, eq_of_beq element, markupTiled accepted n.preorderItself⟩

end JsxTree
