import Mathlib
import JsxTree.Scanner

/-! What a token takes from the text. A lexeme and what follows it make up the text it was read
from, and no lexeme is empty. Cursors are then moved by the text they go past, first over trivia
and then over one token; no tokens ahead come into this. -/
namespace JsxTree

namespace Lexeme

theorem splitEscapedSplits (quote : Char) (cs : List Char) :
    cs = (splitEscaped quote cs).raw ++ (splitEscaped quote cs).rest := by
  fun_induction splitEscaped quote cs with
  | case1 => rfl
  | case2 cs ih => simpa [Body.cons] using ih
  | case3 c cs _ ih => simpa [Body.cons] using ih
  | case4 => rfl
  | case5 => rfl
  | case6 c cs _ _ _ _ ih => simpa [Body.cons] using ih

theorem splitPlainSplits (quote : Char) (cs : List Char) :
    cs = (splitPlain quote cs).raw ++ (splitPlain quote cs).rest := by
  fun_induction splitPlain quote cs with
  | case1 => rfl
  | case2 => rfl
  | case3 c cs _ ih => simpa [Body.cons] using ih

theorem splitFractionSplits (cs : List Char) : cs = (splitFraction cs).1 ++ (splitFraction cs).2 := by
  fun_cases splitFraction cs <;> simp

theorem splitSignSplits (cs : List Char) : cs = (splitSign cs).1 ++ (splitSign cs).2 := by
  fun_cases splitSign cs <;> simp_all

theorem splitExponentSplits (cs : List Char) : cs = (splitExponent cs).1 ++ (splitExponent cs).2 := by
  cases cs with
  | nil => rfl
  | cons e cs =>
      have sign := splitSignSplits cs
      simp only [splitExponent]
      split
      · simpa using sign
      · rfl

theorem splitDecimalSplits (cs : List Char) : cs = (splitDecimal cs).1 ++ (splitDecimal cs).2 := by
  have fraction := splitFractionSplits (cs.dropWhile isDecimalPart)
  have exponent := splitExponentSplits (splitFraction (cs.dropWhile isDecimalPart)).2
  simp only [splitDecimal, List.append_assoc]
  rw [← exponent, ← fraction, List.takeWhile_append_dropWhile]

theorem splitNumberSplits (cs : List Char) : cs = (splitNumber cs).1 ++ (splitNumber cs).2 := by
  unfold splitNumber
  split
  · split
    · simp
    · exact splitDecimalSplits _
  · exact splitDecimalSplits _

theorem splitNumberNonempty {cs : List Char} (h : startsNumber cs = true) : (splitNumber cs).1 ≠ [] := by
  have decimal : (splitDecimal cs).1 ≠ [] := by
    fun_cases startsNumber cs with
    | case1 c cs =>
        have point : isDecimalPart '.' = false := by decide
        simp [splitDecimal, splitFraction, point]
    | case2 c cs =>
        have digit : isDecimalPart c = true := by simp_all [startsNumber, isDecimalPart]
        simp [splitDecimal, digit]
    | case3 => simp [startsNumber] at h
  unfold splitNumber
  split
  · split
    · simp
    · exact decimal
  · exact decimal

theorem wordText (mode : Mode) (raw : String) : (wordKind mode raw).text = raw := by
  unfold wordKind
  repeat' split
  all_goals simp_all [Token.Kind.text]

theorem numberSplits (cs : List Char) : cs = (number cs).raw ++ (number cs).rest := by
  have whole := splitNumberSplits cs
  simp only [number]
  split
  · simp only [invalid, List.append_assoc, List.takeWhile_append_dropWhile]
    exact whole
  · exact whole

theorem punctuatorFound {mode : Mode} {cs : List Char} {p : String} (h : punctuator? mode cs = some p) :
    p ∈ punctuators mode ∧ cs = p.toList ++ cs.drop p.toList.length := by
  refine ⟨List.mem_of_find?_eq_some h, ?_⟩
  have first := List.find?_some h
  exact (List.prefix_iff_eq_append.mp (List.isPrefixOf_iff_prefix.mp first)).symm

theorem punctuatorNonempty {mode : Mode} {p : String} (h : p ∈ punctuators mode) : p.toList ≠ [] := by
  have all : ∀ mode, ∀ p ∈ punctuators mode, p.toList ≠ [] := by
    intro mode; cases mode <;> decide
  exact all mode p h

theorem nextNone {mode : Mode} {cs : List Char} : next? mode cs = none ↔ cs = [] := by
  cases cs <;> simp [next?]

structure Cuts (l : Lexeme) (cs : List Char) : Prop where
  splits : cs = l.raw ++ l.rest
  nonempty : l.raw ≠ []
  text : l.kind.text = String.ofList l.raw

theorem invalidCuts {raw rest : List Char} {message : String} (nonempty : raw ≠ []) :
    (invalid raw rest message).Cuts (raw ++ rest) := ⟨rfl, nonempty, rfl⟩

theorem numberCuts {cs : List Char} (h : startsNumber cs = true) : (number cs).Cuts cs := by
  have nonempty := splitNumberNonempty h
  refine ⟨numberSplits cs, ?_, ?_⟩ <;> simp only [number] <;> split <;>
    simp_all [invalid, Token.Kind.text]

theorem quotedCuts (mode : Mode) (quote : Char) (cs : List Char) :
    (quoted mode quote cs).Cuts (quote :: cs) := by
  have cuts : ∀ body : Body, cs = body.raw ++ body.rest →
      (if body.closed then
          Lexeme.mk (.stringLiteral (String.ofList (quote :: body.raw))) (quote :: body.raw) body.rest
        else invalid (quote :: body.raw) body.rest "unterminated string literal").Cuts (quote :: cs) := by
    intro body whole
    have splits := congrArg (quote :: ·) whole
    split
    · exact ⟨splits, by simp, rfl⟩
    · exact ⟨splits, by simp [invalid], rfl⟩
  cases mode with
  | script => exact cuts _ (splitEscapedSplits quote cs)
  | jsx => exact cuts _ (splitPlainSplits quote cs)

theorem punctuatorCuts (mode : Mode) (c : Char) (cs : List Char) :
    (punctuator mode c cs).Cuts (c :: cs) := by
  unfold punctuator
  split
  · rename_i p found
    obtain ⟨member, splits⟩ := punctuatorFound found
    exact ⟨splits, punctuatorNonempty member, by simp [Token.Kind.text]⟩
  · exact invalidCuts (by simp)

theorem wordCuts (mode : Mode) (c : Char) (cs : List Char) : (word mode c cs).Cuts (c :: cs) :=
  ⟨by simp [word], by simp [word], by simp [word, wordText]⟩

theorem nextCuts {mode : Mode} {cs : List Char} {l : Lexeme} (h : next? mode cs = some l) : l.Cuts cs := by
  cases cs with
  | nil => simp [next?] at h
  | cons c cs =>
      simp only [next?, Option.some.injEq] at h
      subst h
      split
      · have whole : c :: cs ≠ [] := List.cons_ne_nil c cs
        simpa using @invalidCuts (c :: cs) [] "unterminated block comment" whole
      · split
        · exact wordCuts mode c cs
        · split
          · rename_i starts
            exact numberCuts (by simp_all)
          · split
            · exact quotedCuts mode c cs
            · exact punctuatorCuts mode c cs

theorem jsxTextCuts {cs : List Char} {l : Lexeme} (h : jsxText? cs = some l) : l.Cuts cs := by
  simp only [jsxText?] at h
  split at h
  · cases h
  · rename_i nonempty
    cases Option.some.inj h
    exact ⟨by simp, by simpa using nonempty, rfl⟩

theorem jsxTextKind {cs : List Char} {l : Lexeme} (h : jsxText? cs = some l) :
    l.kind = .jsxText (String.ofList l.raw) := by
  simp only [jsxText?] at h
  split at h
  · cases h
  · cases Option.some.inj h; rfl

end Lexeme

namespace Cursor

variable {a b c c' : Cursor} {m : Mode} {k : Token.Kind} {raw : List Char}

def Traces (a : Cursor) (raw : List Char) (b : Cursor) : Prop :=
  a.rest = raw ++ b.rest ∧ b.place = a.place.past raw

def Reaches (a b : Cursor) : Prop := ∃ raw, a.Traces raw b

theorem reachesRefl (a : Cursor) : a.Reaches a := ⟨[], rfl, rfl⟩

theorem Traces.reaches (h : a.Traces raw b) : a.Reaches b := ⟨raw, h⟩

theorem Reaches.trans (ab : a.Reaches b) (bc : b.Reaches c) : a.Reaches c := by
  obtain ⟨as, restA, placeA⟩ := ab
  obtain ⟨bs, restB, placeB⟩ := bc
  refine ⟨as ++ bs, ?_, ?_⟩
  · rw [restA, restB, List.append_assoc]
  · rw [placeB, placeA, Place.pastAppend]

theorem Reaches.offset (h : a.Reaches b) : a.place.offset ≤ b.place.offset := by
  obtain ⟨raw, -, place⟩ := h
  rw [place]; exact Place.offsetLePast _ _

theorem Reaches.position (h : a.Reaches b) : a.position ≤ b.position := h.offset

theorem Reaches.length (h : a.Reaches b) : b.rest.length ≤ a.rest.length := by
  obtain ⟨raw, rest, -⟩ := h
  rw [rest, List.length_append]; exact Nat.le_add_left _ _

theorem Reaches.within {source : String} (h : a.Reaches b) (inside : a.Within source) : b.Within source := by
  obtain ⟨raw, rest, place⟩ := h
  have moved := inside.move rest
  rwa [← place] at moved

structure Advances (a b : Cursor) : Prop where
  reaches : a.Reaches b
  shorter : b.rest.length < a.rest.length
  farther : a.place.offset < b.place.offset

theorem Advances.then (ab : a.Advances b) (bc : b.Reaches c) : a.Advances c :=
  ⟨ab.reaches.trans bc, Nat.lt_of_le_of_lt bc.length ab.shorter, Nat.lt_of_lt_of_le ab.farther bc.offset⟩

theorem Reaches.advances (ab : a.Reaches b) (bc : b.Advances c) : a.Advances c :=
  ⟨ab.trans bc.reaches, Nat.lt_of_lt_of_le bc.shorter ab.length, Nat.lt_of_le_of_lt ab.offset bc.farther⟩

theorem Traces.advances (h : a.Traces raw b) (nonempty : raw ≠ []) : a.Advances b := by
  obtain ⟨first, more, rfl⟩ := List.exists_cons_of_ne_nil nonempty
  have positive := first.utf8Size_pos
  refine ⟨h.reaches, ?_, ?_⟩
  · rw [h.1, List.cons_append, List.length_cons, List.length_append]; omega
  · rw [h.2, Place.pastOffset, Text.byteLength]; omega

def skip (c : Cursor) : Cursor :=
  ⟨c.place.past (Trivia.raw (Trivia.split c.rest).1), (Trivia.split c.rest).2⟩

theorem reachesSkip (c : Cursor) : c.Reaches c.skip := ⟨_, Trivia.splitSplits c.rest, rfl⟩

theorem skipSkip (c : Cursor) : c.skip.skip = c.skip := by
  have stop := Trivia.splitStop (Trivia.splitMaximal c.rest)
  simp [skip, stop, Trivia.raw, Place.pastNil]

def next? (m : Mode) (c : Cursor) : Option (Token.Kind × Cursor) :=
  (Lexeme.next? m c.skip.rest).map fun l => (l.kind, ⟨c.skip.place.past l.raw, l.rest⟩)

theorem nextSkip (m : Mode) (c : Cursor) : c.skip.next? m = c.next? m := by rw [next?, skipSkip, next?]

theorem nextNone : c.next? m = none ↔ c.skip.rest = [] := by
  rw [next?, Option.map_eq_none_iff, Lexeme.nextNone]

theorem nextTraces (h : c.next? m = some (k, c')) :
    c.skip.Traces k.text.toList c' ∧ k.text.toList ≠ [] := by
  simp only [next?, Option.map_eq_some_iff, Prod.mk.injEq] at h
  obtain ⟨l, found, rfl, rfl⟩ := h
  have cuts := Lexeme.nextCuts found
  rw [cuts.text, String.toList_ofList]
  exact ⟨⟨cuts.splits, rfl⟩, cuts.nonempty⟩

theorem nextAdvances (h : c.next? m = some (k, c')) : c.Advances c' :=
  c.reachesSkip.advances ((nextTraces h).1.advances (nextTraces h).2)

theorem skipReaches (h : c.next? m = some (k, c')) : c.skip.Reaches c' := (nextTraces h).1.reaches

theorem nextReaches (h : c.next? m = some (k, c')) : c.Reaches c' := (nextAdvances h).reaches

def spanTo (c c' : Cursor) (file : Option String) : Span := ⟨c.skip.position, c'.position, file⟩

def Stops (c : Cursor) (ps : List String) (m : Mode) : Prop :=
  ∀ p c', c.next? m = some (.punctuator p, c') → p ∉ ps

def text? (c : Cursor) : Option (String × Cursor) :=
  (Lexeme.jsxText? c.rest).map fun l => (String.ofList l.raw, ⟨c.place.past l.raw, l.rest⟩)

theorem textTraces {text : String} (h : c.text? = some (text, c')) :
    c.Traces text.toList c' ∧ text.toList ≠ [] := by
  simp only [text?, Option.map_eq_some_iff, Prod.mk.injEq] at h
  obtain ⟨l, found, rfl, rfl⟩ := h
  have cuts := Lexeme.jsxTextCuts found
  rw [String.toList_ofList]
  exact ⟨⟨cuts.splits, rfl⟩, cuts.nonempty⟩

theorem textCut {text : String} (h : c.text? = some (text, c')) :
    text.toList = c.rest.takeWhile (!Lexeme.endsText ·) ∧ c'.rest = c.rest.dropWhile (!Lexeme.endsText ·) := by
  simp only [text?, Option.map_eq_some_iff, Prod.mk.injEq, Lexeme.jsxText?] at h
  obtain ⟨l, found, rfl, rfl⟩ := h
  split at found
  · cases found
  · cases Option.some.inj found
    exact ⟨String.toList_ofList, rfl⟩

theorem textNone : c.text? = none ↔ c.rest.takeWhile (!Lexeme.endsText ·) = [] := by
  simp only [text?, Option.map_eq_none_iff, Lexeme.jsxText?]
  split
  · rename_i empty
    simpa using empty
  · rename_i nonempty
    simpa using nonempty

theorem textMaximal {text : String} (h : c.text? = some (text, c')) : c'.text? = none := by
  rw [textNone, (textCut h).2]
  cases tail : c.rest.dropWhile (!Lexeme.endsText ·) with
  | nil => rfl
  | cons e es =>
      have head := List.head?_dropWhile_not (!Lexeme.endsText ·) c.rest
      rw [tail] at head
      exact List.takeWhile_cons_of_neg (by simpa using head)

theorem textPlain {text : String} (h : c.text? = some (text, c')) : ∀ e ∈ text.toList, Lexeme.endsText e = false := by
  intro e inside
  rw [(textCut h).1] at inside
  have all := List.all_eq_true.mp (List.all_takeWhile (p := (!Lexeme.endsText ·)) (l := c.rest))
  simpa using all e inside

end Cursor

end JsxTree
