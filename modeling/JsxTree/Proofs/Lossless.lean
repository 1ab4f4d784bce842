import JsxTree.Proofs.Sessions
import JsxTree.Proofs.Spans

/-! What a scanner hands out for good, without going back, loses nothing of the text: between the tokens
there is nothing but trivia, whatever was looked at, skipped or read in another mode meanwhile. -/
namespace JsxTree

namespace Trivia

def Piece.Proper : Piece → Prop
  | blank c => isBlank c = true
  | line text => ∀ c ∈ text, endsLine c = false
  | block text => ¬['*', '/'] <:+: text

/-- A piece that goes no further: a line comment goes on to the end of its line. -/
structure Piece.Whole (p : Piece) (rest : List Char) : Prop where
  proper : p.Proper
  ended : ∀ text, p = line text → ∀ e ∈ rest.head?, endsLine e = true

/-- Text of nothing but blanks, line comments and block comments, each of them whole where it stands, and the text behind it. -/
inductive IsTrivia : List Char → List Char → Prop where
  | nil (rest : List Char) : IsTrivia [] rest
  | cons {p : Piece} {gap rest : List Char} (whole : p.Whole (gap ++ rest)) (more : IsTrivia gap rest) :
      IsTrivia (p.raw ++ gap) rest

theorem splitBlockProper {cs text rest : List Char} (h : splitBlock cs = some (text, rest)) : ¬['*', '/'] <:+: text := by
  fun_induction splitBlock cs generalizing text rest with
  | case1 => cases h
  | case2 rest' =>
      cases Option.some.inj h
      exact fun inside => by simpa using inside.length_le
  | case3 c cs unclosed ih =>
      simp only [Option.map_eq_some_iff, Prod.mk.injEq, Prod.exists] at h
      obtain ⟨text', rest', found, rfl, rfl⟩ := h
      intro inside
      obtain front | later := List.infix_cons_iff.mp inside
      · obtain ⟨rfl, more⟩ := List.cons_prefix_cons.mp front
        obtain ⟨more', same⟩ := more
        refine unclosed (more' ++ '*' :: '/' :: rest') rfl ?_
        rw [splitBlockSplits found, ← same]
        rfl
      · exact ih found later

theorem splitPieceProper {cs rest : List Char} {p : Piece} (h : splitPiece cs = some (p, rest)) : p.Proper := by
  unfold splitPiece at h
  split at h
  · cases Option.some.inj h
    intro c inside
    simpa using List.all_eq_true.mp List.all_takeWhile c inside
  · simp only [Option.map_eq_some_iff, Prod.mk.injEq, Prod.exists] at h
    obtain ⟨text, rest', found, rfl, -⟩ := h
    exact splitBlockProper found
  · split at h
    · rename_i blank
      cases Option.some.inj h
      exact blank
    · cases h
  · cases h

theorem splitPieceWhole {cs rest : List Char} {p : Piece} (found : splitPiece cs = some (p, rest)) : p.Whole rest := by
  refine ⟨splitPieceProper found, ?_⟩
  rintro text rfl e first
  unfold splitPiece at found
  split at found
  · rename_i es
    cases Option.some.inj found
    have stops := List.head?_dropWhile_not (!endsLine ·) es
    rw [first] at stops
    simpa using stops
  · simp at found
  · split at found <;> simp at found
  · cases found

theorem splitIsTrivia (cs : List Char) : IsTrivia (raw (split cs).1) (split cs).2 := by
  fun_induction split cs with
  | case1 cs => exact .nil cs
  | case2 cs p rest found ih =>
      rw [raw, List.flatMap_cons]
      refine .cons ?_ ih
      rw [← raw, ← splitSplits]
      exact splitPieceWhole found

end Trivia

open Trivia

def TriviaBetween (cs : List Char) (start stop : Nat) : Prop :=
  ∃ gap rest, Text.slice start stop cs = some gap ∧ Text.dropBytes stop cs = some rest ∧ IsTrivia gap rest

/-- From an offset on, tokens of the text one after another: none is empty, each has the text that its span has, and in
front of each there is nothing but trivia. -/
def CutFrom (cs : List Char) : Nat → List Token → Prop
  | _, [] => True
  | offset, t :: ts => TriviaBetween cs offset t.span.start.offset ∧ t.span.start.offset < t.span.stop.offset ∧
      Text.slice t.span.start.offset t.span.stop.offset cs = some t.text.toList ∧ CutFrom cs t.span.stop.offset ts

def endFrom : Nat → List Token → Nat
  | offset, [] => offset
  | _, t :: ts => endFrom t.span.stop.offset ts

section Cuts

variable {cs : List Char} {offset : Nat} {ts : List Token} {t : Token}

theorem Text.sliceOrdered {start stop : Nat} {piece : List Char} (h : Text.slice start stop cs = some piece) :
    start ≤ stop := by
  unfold Text.slice at h
  split at h
  · assumption
  · cases h

theorem CutFrom.last (h : CutFrom cs offset ts) (gap : TriviaBetween cs (endFrom offset ts) t.span.start.offset)
    (nonempty : t.span.start.offset < t.span.stop.offset)
    (own : Text.slice t.span.start.offset t.span.stop.offset cs = some t.text.toList) : CutFrom cs offset (ts ++ [t]) := by
  induction ts generalizing offset with
  | nil => exact ⟨gap, nonempty, own, trivial⟩
  | cons u us ih =>
      obtain ⟨before, own', exact', more⟩ := h
      exact ⟨before, own', exact', ih more gap⟩

theorem endFromLast : endFrom offset (ts ++ [t]) = t.span.stop.offset := by
  induction ts generalizing offset with
  | nil => rfl
  | cons u us ih => exact ih

theorem CutFrom.later (h : CutFrom cs offset ts) : ∀ t ∈ ts, offset ≤ t.span.start.offset := by
  induction ts generalizing offset with
  | nil => exact List.forall_mem_nil _
  | cons u us ih =>
      obtain ⟨⟨gap, rest, between, -⟩, nonempty, -, more⟩ := h
      have start := Text.sliceOrdered between
      exact List.forall_mem_cons.mpr ⟨start, fun t inside => by
        have later := ih more t inside
        omega⟩

theorem CutFrom.apart (h : CutFrom cs offset ts) : ts.Pairwise fun a b => a.span.stop.offset ≤ b.span.start.offset := by
  induction ts generalizing offset with
  | nil => exact .nil
  | cons u us ih => exact .cons h.2.2.2.later (ih h.2.2.2)

theorem CutFrom.length (h : CutFrom cs offset ts) : offset + ts.length ≤ endFrom offset ts := by
  induction ts generalizing offset with
  | nil => exact Nat.le_refl _
  | cons u us ih =>
      obtain ⟨⟨gap, rest, between, -⟩, nonempty, -, more⟩ := h
      have start := Text.sliceOrdered between
      have rest := ih more
      simp only [List.length_cons, endFrom]
      omega

end Cuts

namespace Scanner

variable {source : String} {file : Option String} {m : Mode} {e c : Cursor} {s s' : Scanner} {a : Ahead} {as : List Ahead}

def Near (e c : Cursor) : Prop := c = e ∨ c = e.skip

theorem Near.skip (h : Near e c) : c.skip = e.skip := by
  obtain rfl | rfl := h
  · rfl
  · exact Cursor.skipSkip e

theorem Near.gap (h : Near e c) : ∃ gap, e.Traces gap c ∧ IsTrivia gap c.rest := by
  obtain rfl | rfl := h
  · exact ⟨[], ⟨rfl, rfl⟩, .nil _⟩
  · exact ⟨_, ⟨splitSplits e.rest, rfl⟩, splitIsTrivia e.rest⟩

def Follows (e : Cursor) (a : Ahead) : Prop :=
  ∃ c, Near e c ∧ c.Traces a.token.text.toList a.after ∧ a.token.text.toList ≠ [] ∧
    a.token.span.start = c.position ∧ a.token.span.stop = a.after.position

theorem lexFollows (near : Near e c) (h : lex? file m c = some a) : Follows e a := by
  obtain ⟨next, span⟩ := lexAgrees h
  obtain ⟨traced, nonempty⟩ := Cursor.nextTraces next
  refine ⟨c.skip, .inr near.skip, traced, nonempty, ?_, ?_⟩ <;> rw [span] <;> rfl

structure Cuts (e : Cursor) (s : Scanner) : Prop where
  near : Near e s.cursor
  ahead : Linked Follows e s.ahead

theorem Cuts.readAhead (h : Cuts e s) : Cuts e s.readAhead := by
  have near : Near (frontier e s.ahead) (frontier s.cursor s.ahead) := by
    cases s.ahead with
    | nil => exact h.near
    | cons => exact .inl rfl
  rw [readAheadOf]
  cases found : lex? s.file s.mode (frontier s.cursor s.ahead) with
  | none => exact ⟨h.near, by simpa using h.ahead⟩
  | some a => exact ⟨h.near, linkedMore h.ahead (lexFollows near found)⟩

theorem Cuts.foresees (h : Cuts e s) (more : Foresees s s') : Cuts e s' := by
  induction more with
  | refl => exact h
  | more _ ih => exact ih.readAhead

def HandsOut (e : Cursor) : Option Token × Scanner → Prop
  | (none, s) => Cuts e s
  | (some t, s) => ∃ e', Follows e ⟨t, e'⟩ ∧ Cuts e' s

theorem Cuts.advance (h : Cuts e s) : HandsOut e s.advance := by
  have filled := h.foresees (fillForesees 1 s)
  simp only [Scanner.advance]
  cases tokens : (s.fill 1).ahead with
  | nil => exact filled
  | cons a as =>
      have ahead := filled.ahead
      rw [tokens] at ahead
      exact ⟨a.after, ahead.1, .inl rfl, ahead.2⟩

theorem Cuts.consume (h : Cuts e s) (ps : List String) : HandsOut e (s.consume ps) := by
  have current := h.foresees (currentForesees s)
  simp only [Scanner.consume]
  split
  · exact current.advance
  · exact current

theorem Cuts.ended (h : Cuts e s) (none : s.advance.1 = none) : e.skip.rest = [] := by
  simp only [Scanner.advance] at none
  cases tokens : (s.fill 1).ahead with
  | cons a as =>
      rw [tokens] at none
      cases none
  | nil =>
      rw [fillOne] at tokens
      split at tokens
      · rename_i empty
        rw [readAheadOf, empty] at tokens
        cases found : lex? s.file s.mode s.cursor with
        | none =>
            have ends := Cursor.nextNone.mp (lexNone found)
            rwa [h.near.skip] at ends
        | some a => simp [frontier, found] at tokens
      · rename_i nonempty
        exact absurd tokens nonempty

theorem Cuts.setMode (h : Cuts e s) (m : Mode) : Cuts e (s.setMode m) := by
  unfold Scanner.setMode
  split
  · exact h
  · exact ⟨h.near, trivial⟩

theorem Cuts.readText (h : Cuts e s) : Cuts e s.readText.2 := by
  simp only [Scanner.readText]
  cases found : Lexeme.jsxText? s.cursor.rest with
  | none => exact h
  | some l =>
      have cuts := Lexeme.jsxTextCuts found
      have text : l.kind.text.toList = l.raw := by rw [cuts.text, String.toList_ofList]
      -- The run may be made of trivia that was ahead of the next token, but not of any handed out: nothing is lost behind `e`.
      refine ⟨h.near, ⟨s.cursor, h.near, ⟨?_, ?_⟩, ?_, rfl, rfl⟩, trivial⟩
      · exact text ▸ cuts.splits
      · exact congrArg s.cursor.place.past text.symm
      · exact text ▸ cuts.nonempty

theorem Cuts.skipTrivia (h : Cuts e s) (required : Bool) : Cuts e (s.skipTrivia required).2 := by
  obtain same | moved := skipTriviaSame required s
  · rw [same]
    exact h
  · rw [moved]
    exact ⟨.inr h.near.skip, h.ahead⟩

structure Trail (source : String) (ts : List Token) (s : Scanner) : Prop where
  cut : CutFrom source.toList 0 ts
  reached : ∃ e, e.Within source ∧ e.place.offset = endFrom 0 ts ∧ Cuts e s

theorem Trail.handsOut {ts : List Token} {r : Option Token × Scanner} (cut : CutFrom source.toList 0 ts)
    (within : e.Within source) (reached : e.place.offset = endFrom 0 ts) (h : HandsOut e r) :
    Trail source (ts ++ r.1.toList) r.2 := by
  obtain ⟨t, s⟩ := r
  cases t with
  | none => exact ⟨by simpa using cut, e, within, by simpa using reached, h⟩
  | some t =>
      obtain ⟨e', ⟨c, near, traced, nonempty, start, stop⟩, cuts⟩ := h
      obtain ⟨gap, skipped, blank⟩ := near.gap
      have within' := skipped.reaches.within within
      have between : TriviaBetween source.toList (endFrom 0 ts) t.span.start.offset := by
        rw [← reached, start]
        exact ⟨gap, c.rest, within.slice skipped, within'.behind, blank⟩
      have farther : t.span.start.offset < t.span.stop.offset := by
        rw [start, stop]
        exact (traced.advances nonempty).farther
      have own : Text.slice t.span.start.offset t.span.stop.offset source.toList = some t.text.toList := by
        rw [start, stop]
        exact within'.slice traced
      have whole := cut.last between farther own
      have ended : e'.place.offset = endFrom 0 (ts ++ [t]) := by
        rw [endFromLast, stop]
        rfl
      exact ⟨whole, e', traced.reaches.within within', ended, cuts⟩

theorem Trail.ask {ts : List Token} {s : Session Scanner} (h : Trail source ts s.scanner) {call : Call}
    (forward : call.goesBack = false) :
    Trail source (ts ++ call.takes (Scanner.ask s call).1) (Scanner.ask s call).2.scanner := by
  obtain ⟨cut, e, within, reached, cuts⟩ := h
  have stays : ∀ {s' : Scanner}, Cuts e s' → Trail source (ts ++ []) s' := fun cuts' => by
    rw [List.append_nil]
    exact ⟨cut, e, within, reached, cuts'⟩
  have goes : ∀ {r : Option Token × Scanner}, HandsOut e r → call.takes (.token r.1) = r.1.toList →
      Trail source (ts ++ call.takes (.token r.1)) r.2 := fun out same => by
    rw [same]
    exact Trail.handsOut cut within reached out
  cases call with
  | current | atEnd => exact stays (cuts.foresees (currentForesees s.scanner))
  | peek => exact stays (cuts.foresees (peekForesees s.scanner))
  | advance => exact goes cuts.advance (by cases s.scanner.advance.1 <;> rfl)
  | consume ps => exact goes (cuts.consume ps) (by cases (s.scanner.consume ps).1 <;> rfl)
  | setMode m => exact stays (cuts.setMode m)
  | readText => exact stays cuts.readText
  | skipTrivia required => exact stays (cuts.skipTrivia required)
  | lastEnd | checkpoint => exact stays cuts
  | rewind i => cases forward

theorem Trail.run {ts : List Token} {s : Session Scanner} (h : Trail source ts s.scanner) {calls : List Call}
    (forward : ∀ call ∈ calls, call.goesBack = false) :
    Trail source (ts ++ handedOut calls (Session.run Scanner.ask calls s).1) (Session.run Scanner.ask calls s).2.scanner := by
  induction calls generalizing ts s with
  | nil => simpa [handedOut, Session.run] using h
  | cons call calls ih =>
      obtain ⟨first, others⟩ := List.forall_mem_cons.mp forward
      have more := ih (h.ask first) others
      rwa [List.append_assoc] at more

theorem startTrail (source : String) (file : Option String) : Trail source [] (start source file) :=
  ⟨trivial, .start source, Cursor.startWithin source, rfl, .inl rfl, trivial⟩

/-- Whatever is asked of a scanner that does not go back, the tokens it hands out for good are cut from the source one
after another with nothing but trivia in front of each; there are no more of them than the source has bytes, and once
there is no further one, nothing but trivia is left. -/
theorem runLossless (source : String) (file : Option String) (calls : List Call)
    (forward : ∀ call ∈ calls, call.goesBack = false) :
    let outcome := Session.run ask calls (session source file)
    let ts := handedOut calls outcome.1
    CutFrom source.toList 0 ts ∧ (ts.Pairwise fun a b => a.span.stop.offset ≤ b.span.start.offset) ∧
      ts.length ≤ Text.byteLength source.toList ∧
      (outcome.2.scanner.advance.1 = none →
        TriviaBetween source.toList (endFrom 0 ts) (Text.byteLength source.toList)) := by
  intro outcome ts
  have trail := Trail.run (s := session source file) (startTrail source file) forward
  obtain ⟨cut, e, within, reached, cuts⟩ := trail
  rw [List.nil_append] at cut reached
  have few : 0 + ts.length ≤ endFrom 0 ts := cut.length
  have bounded := Text.boundaryLength within.boundary
  rw [show e.position.offset = endFrom 0 ts from reached] at bounded
  refine ⟨cut, cut.apart, Nat.le_trans (Nat.zero_add ts.length ▸ few) bounded, fun none => ?_⟩
  have nothing := cuts.ended none
  obtain ⟨gap, skipped, blank⟩ := Near.gap (.inr rfl : Near e e.skip)
  have within' := skipped.reaches.within within
  have stop : e.skip.position.offset = Text.byteLength source.toList := by
    obtain ⟨behind, whole, offset⟩ := within'.offset
    rw [show e.skip.position.offset = _ from offset, whole, nothing, List.append_nil]
  rw [← stop, ← reached]
  exact ⟨gap, e.skip.rest, within.slice skipped, within'.behind, blank⟩

theorem runLosslessSkipping :
    let calls := [.peek, .readText, .skipTrivia true, .advance, .setMode .jsx, .consume ["<", ">"], .advance]
    let outcome := Session.run ask calls (session "//a<b\n<c" none)
    let ts := handedOut calls outcome.1
    (∀ call ∈ calls, call.goesBack = false) ∧ ts.map Token.text = ["//a", "<", "b"] ∧
      CutFrom "//a<b\n<c".toList 0 ts ∧ (ts.Pairwise fun a b => a.span.stop.offset ≤ b.span.start.offset) ∧
      ts.length ≤ Text.byteLength "//a<b\n<c".toList ∧
      (outcome.2.scanner.advance.1 = none →
        TriviaBetween "//a<b\n<c".toList (endFrom 0 ts) (Text.byteLength "//a<b\n<c".toList)) := by
  intro calls outcome ts
  have forward : ∀ call ∈ calls, call.goesBack = false := by decide
  exact ⟨forward, by decide +kernel, runLossless "//a<b\n<c" none calls forward⟩

end Scanner

end JsxTree
