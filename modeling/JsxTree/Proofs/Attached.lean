import JsxTree.Proofs.Bufferless
import JsxTree.Proofs.Lexemes
import JsxTree.Proofs.Lossless

/-! Which comments come with a token. They are those between the token and the place where the scanner stood when it first
looked at it: behind the token before, or behind trivia that was skipped by then. Comments skipped later on stay with it. -/
namespace JsxTree

namespace Trivia

namespace Piece

def comment? (span : Span) : Piece → Option Comment
  | blank _ => none
  | line text => some ⟨.line, String.ofList text, span⟩
  | block text => some ⟨.block, String.ofList text, span⟩

end Piece

theorem splitBlockFront {text : List Char} (unclosed : ¬['*', '/'] <:+: text) (rest : List Char) :
    splitBlock (text ++ '*' :: '/' :: rest) = some (text, rest) := by
  induction text with
  | nil => rfl
  | cons c text ih =>
      have within : ¬['*', '/'] <:+: text := fun inside => unclosed (inside.trans (List.suffix_cons c text).isInfix)
      have apart : ∀ es, c = '*' → text ++ '*' :: '/' :: rest = '/' :: es → False := by
        intro es star same
        cases text with
        | nil => cases same
        | cons e text =>
            cases List.head_eq_of_cons_eq same
            exact unclosed (star ▸ (List.prefix_append ['*', '/'] text).isInfix)
      rw [List.cons_append, splitBlock.eq_3 c _ apart, ih within]
      rfl

theorem splitPieceIff {cs rest : List Char} {p : Piece} :
    splitPiece cs = some (p, rest) ↔ cs = p.raw ++ rest ∧ p.Whole rest := by
  refine ⟨fun found => ⟨splitPieceSplits found, splitPieceWhole found⟩, ?_⟩
  rintro ⟨rfl, proper, ended⟩
  cases p with
  | blank e =>
      have other : e ≠ '/' := by
        rintro rfl
        cases proper
      rw [Piece.raw, List.singleton_append, splitPiece]
      · exact if_pos proper
      · exact fun es same => absurd same other
      · exact fun es same => absurd same other
  | line text =>
      have plain : ∀ e ∈ text, (!endsLine e) = true := fun e inside => by rw [proper e inside]; rfl
      have stop : Lexeme.Avoids (!endsLine ·) rest := fun e first => congrArg (!·) (ended text rfl e first)
      simp only [Piece.raw, List.cons_append, splitPiece, Lexeme.takeWhileThen plain stop, Lexeme.dropWhileThen plain stop]
  | block text =>
      simp only [Piece.raw, List.cons_append, List.append_assoc, List.nil_append, splitPiece, splitBlockFront proper,
        Option.map_some]

theorem commentsCons (file : Option String) (place : Place) (p : Piece) (ps : List Piece) :
    comments file place (p :: ps) = (p.comment? ⟨place.position, (place.past p.raw).position, file⟩).toList ++
      comments file (place.past p.raw) ps := by
  cases p <;> rfl

end Trivia

namespace Cursor

/-- From one cursor to another there is nothing but blanks and these comments, one after another as the source has them. -/
inductive Commented (file : Option String) : Cursor → List Comment → Cursor → Prop where
  | done (c : Cursor) : Commented file c [] c
  | piece {c b c' : Cursor} {p : Trivia.Piece} {comments : List Comment} (past : c.Traces p.raw b) (whole : p.Whole b.rest)
      (more : Commented file b comments c') :
      Commented file c ((p.comment? ⟨c.position, b.position, file⟩).toList ++ comments) c'

variable {file : Option String} {c c' : Cursor} {comments others : List Comment}

theorem Commented.reaches (h : c.Commented file comments c') : c.Reaches c' := by
  induction h with
  | done c => exact reachesRefl c
  | piece past _ _ ih => exact past.reaches.trans ih

theorem pieceAdvances {p : Trivia.Piece} (past : c.Traces p.raw c') : c.Advances c' :=
  past.advances (List.ne_nil_of_length_pos (Trivia.rawPos p))

theorem Commented.stays (h : c.Commented file comments c') (same : c'.place.offset ≤ c.place.offset) : comments = [] := by
  cases h with
  | done => rfl
  | piece past _ more =>
      have farther := (pieceAdvances past).farther
      have reached := more.reaches.offset
      omega

theorem Commented.unique (h : c.Commented file comments c') (h' : c.Commented file others c') : comments = others := by
  induction h generalizing others with
  | done c => exact (h'.stays (Nat.le_refl _)).symm
  | @piece c b c' p comments past whole more ih =>
      cases h' with
      | done => exact (Commented.piece past whole more).stays (Nat.le_refl _)
      | @piece _ b' _ p' _ past' whole' more' =>
          have cut := Trivia.splitPieceIff.mpr ⟨past.1, whole⟩
          rw [Trivia.splitPieceIff.mpr ⟨past'.1, whole'⟩, Option.some.injEq, Prod.mk.injEq] at cut
          obtain ⟨rfl, rest⟩ := cut
          obtain rfl : b' = b := by
            cases b
            cases b'
            simp only [Cursor.mk.injEq]
            exact ⟨past'.2.trans past.2.symm, rest⟩
          rw [ih more']

end Cursor

theorem Trivia.splitCommented (file : Option String) (place : Place) (cs : List Char) : Cursor.Commented file ⟨place, cs⟩
    (comments file place (split cs).1) ⟨place.past (raw (split cs).1), (split cs).2⟩ := by
  fun_induction split cs generalizing place with
  | case1 cs found => exact .done _
  | case2 cs p rest found ih =>
      rw [raw, List.flatMap_cons, Place.pastAppend, commentsCons]
      obtain ⟨splits, whole⟩ := splitPieceIff.mp found
      exact @Cursor.Commented.piece file ⟨place, cs⟩ ⟨place.past p.raw, rest⟩ _ p _ ⟨splits, rfl⟩ whole (ih _)

/-- A token comes with the comments that lie between an offset of the source and the token, and with no others. -/
def Token.Carries (source : String) (file : Option String) (offset : Nat) (t : Token) : Prop :=
  ∃ c c' : Cursor, c.Within source ∧ c.place.offset = offset ∧ c'.position = t.span.start ∧
    ∀ comments, c.Commented file comments c' ↔ comments = t.comments

def Call.plain : Call → Bool
  | .rewind _ | .readText => false
  | _ => true

/-- Where a scanner stands, as told from its answers: how far it has come by handing out tokens and skipping trivia, how many
tokens behind that place have been looked at, and how many bytes in front of it were skipped since the first of them was. -/
structure Outlook where
  reached : Nat
  late : Nat
  seen : Nat
  mode : Mode
  deriving DecidableEq, Repr

namespace Outlook

def start : Outlook := ⟨0, 0, 0, .script⟩

def look (n : Nat) (o : Outlook) : Outlook := { o with seen := max o.seen n }

def next (o : Outlook) : Call → Answer → Outlook
  | .current, _ | .atEnd, _ => o.look 1
  | .peek, _ => o.look 2
  | .advance, .token (some t) | .consume _, .token (some t) => ⟨t.span.stop.offset, 0, o.seen - 1, o.mode⟩
  | .advance, _ | .consume _, _ => o.look 1
  | .setMode m, _ => if o.mode = m then o else ⟨o.reached, 0, 0, m⟩
  | .skipTrivia _, .bytes (some n) => { o with reached := o.reached + n, late := if o.seen = 0 then 0 else o.late + n }
  | _, _ => o

def tokens : Outlook → List Call → List Answer → List (Outlook × Token)
  | o, call :: calls, answer :: answers => (call.takes answer).map (o, ·) ++ (o.next call answer).tokens calls answers
  | _, _, _ => []

end Outlook

namespace Scanner

variable {source : String} {file : Option String} {m : Mode} {c c' : Cursor} {s s' : Scanner} {o : Outlook} {a : Ahead}
  {as : List Ahead} {n k : Nat}

section Lexed

def lexed (file : Option String) (m : Mode) : Nat → Cursor → List Ahead
  | 0, _ => []
  | n + 1, c =>
      match lex? file m c with
      | none => []
      | some a => a :: lexed file m n a.after

theorem lexedLength (n : Nat) (c : Cursor) : (lexed file m n c).length ≤ n := by
  induction n generalizing c with
  | zero => exact Nat.le_refl 0
  | succ n ih =>
      rw [lexed]
      split
      · exact Nat.zero_le _
      · exact Nat.succ_le_succ (ih _)

theorem lexedMore (n : Nat) (c : Cursor) :
    lexed file m (n + 1) c = lexed file m n c ++ (lex? file m (frontier c (lexed file m n c))).toList := by
  induction n generalizing c with
  | zero =>
      simp only [lexed, frontier, List.nil_append]
      cases lex? file m c <;> rfl
  | succ n ih =>
      rw [lexed, lexed]
      cases found : lex? file m c with
      | none => simp [frontier, found]
      | some a => simp [frontier, ih a.after]

theorem lexedEnded (few : (lexed file m n c).length < n) : lex? file m (frontier c (lexed file m n c)) = none := by
  induction n generalizing c with
  | zero => exact absurd few (Nat.not_lt_zero _)
  | succ n ih =>
      rw [lexed] at few ⊢
      cases found : lex? file m c with
      | none => simpa [frontier] using found
      | some a =>
          rw [found] at few
          exact ih (Nat.lt_of_succ_lt_succ few)

theorem lexNoneAlike (same : c.skip = c'.skip) : lex? file m c = none ↔ lex? file m c' = none := by
  simp only [lex?, Option.map_eq_none_iff]
  exact Eq.to_iff (congrArg (fun b : Cursor => Lexeme.next? m b.rest = none) same)

end Lexed

structure Views (source : String) (file : Option String) (o : Outlook) (s : Scanner) : Prop where
  path : s.file = file
  mode : s.mode = o.mode
  within : s.cursor.Within source
  reached : s.cursor.place.offset = o.reached
  origin : ∃ c : Cursor, c.Within source ∧ c.place.offset + o.late = o.reached ∧ c.skip = s.cursor.skip ∧
    (o.seen = 0 → c = s.cursor) ∧ s.ahead = lexed file o.mode o.seen c

theorem frontierLexed (same : c.skip = c'.skip) (unseen : n = 0 → c = c') :
    lex? file m (frontier c' (lexed file m n c)) = lex? file m (frontier c (lexed file m n c)) := by
  cases ahead : lexed file m n c with
  | cons => rfl
  | nil =>
      obtain rfl | some := Nat.eq_zero_or_pos n
      · rw [unseen rfl]
      · have few : (lexed file m n c).length < n := by rw [ahead]; exact some
        have ended : lex? file m c = none := by simpa [ahead, frontier] using lexedEnded few
        simp only [frontier, ended, (lexNoneAlike same).mp ended]

theorem fillLexed (same : c.skip = s.cursor.skip) (unseen : k = 0 → c = s.cursor) (ahead : s.ahead = lexed s.file s.mode k c)
    (n : Nat) : (s.fill n).ahead = lexed s.file s.mode (max k n) c := by
  induction n with
  | zero => rw [Nat.max_zero]; exact ahead
  | succ n ih =>
      obtain ⟨cursor, -, mode, path⟩ := (fillForesees n s).same
      simp only [fill, apply_ite Scanner.ahead, readAheadOf, cursor, mode, path, ih]
      have front : lex? s.file s.mode (frontier s.cursor (lexed s.file s.mode (max k n) c)) =
          lex? s.file s.mode (frontier c (lexed s.file s.mode (max k n) c)) :=
        frontierLexed same fun none => unseen (by omega)
      split
      · rename_i short
        rw [front]
        by_cases more : n < k
        · have ended : lex? s.file s.mode (frontier c (lexed s.file s.mode (max k n) c)) = none :=
            lexedEnded (by omega)
          rw [ended, show max k (n + 1) = max k n by omega, Option.toList_none, List.append_nil]
        · rw [← lexedMore, show max k (n + 1) = max k n + 1 by omega]
      · rename_i enough
        have most := @lexedLength s.file s.mode (max k n) c
        rw [show max k (n + 1) = max k n by omega]

theorem Views.look (h : Views source file o s) (n : Nat) : Views source file (o.look n) (s.fill n) := by
  obtain ⟨rfl, mode, within, reached, c, inside, offset, same, unseen, ahead⟩ := h
  obtain ⟨cursor, -, mode', path⟩ := (fillForesees n s).same
  rw [← mode] at ahead
  have filled := fillLexed same unseen ahead n
  refine ⟨path, mode'.trans mode, cursor ▸ within, cursor ▸ reached, c, inside, offset, cursor ▸ same, fun none => ?_, ?_⟩
  · rw [cursor]
    exact unseen (by simp only [Outlook.look] at none; omega)
  · rw [filled, mode]
    rfl

def Serves (source : String) (file : Option String) (o : Outlook) : Option Token × Scanner → Prop
  | (none, s) => Views source file (o.look 1) s
  | (some t, s) => t.Carries source file (o.reached - o.late) ∧ Views source file ⟨t.span.stop.offset, 0, o.seen - 1, o.mode⟩ s

theorem lexCarries (inside : c.Within source) (found : lex? file m c = some a) :
    a.token.Carries source file c.place.offset ∧ a.after.Within source ∧ a.token.span.stop = a.after.position := by
  have within := (Cursor.nextReaches (lexAgrees found).1).within inside
  simp only [lex?, Option.map_eq_some_iff] at found
  obtain ⟨l, next, rfl⟩ := found
  have own : c.Commented file (Trivia.comments file c.place (Trivia.split c.rest).1) c.skip :=
    Trivia.splitCommented file c.place c.rest
  exact ⟨⟨c, c.skip, inside, rfl, rfl, fun comments => ⟨fun read => read.unique own, fun same => same ▸ own⟩⟩, within, rfl⟩

theorem Views.advance (h : Views source file o s) : Serves source file o s.advance := by
  have looked := h.look 1
  simp only [Scanner.advance]
  cases tokens : (s.fill 1).ahead with
  | nil => exact looked
  | cons a as =>
      obtain ⟨path, mode, within, reached, c, inside, offset, same, unseen, ahead⟩ := looked
      obtain ⟨n, seen⟩ : ∃ n, max o.seen 1 = n + 1 := ⟨max o.seen 1 - 1, by omega⟩
      simp only [Outlook.look, seen, tokens, lexed] at ahead
      cases found : lex? file o.mode c with
      | none =>
          rw [found] at ahead
          cases ahead
      | some b =>
          rw [found] at ahead
          obtain ⟨rfl, rfl⟩ := List.cons.inj ahead
          obtain ⟨carries, inside', ended⟩ := lexCarries inside found
          rw [show c.place.offset = o.reached - o.late by simp only [Outlook.look] at offset; omega] at carries
          refine ⟨carries, path, mode, inside', congrArg Position.offset ended.symm, a.after, inside', ?_, rfl, fun _ => rfl, ?_⟩
          · exact congrArg Position.offset ended.symm
          · rw [show o.seen - 1 = n by omega]

theorem Serves.looked {r : Option Token × Scanner} (h : Serves source file (o.look 1) r) : Serves source file o r := by
  obtain ⟨t, s⟩ := r
  cases t with
  | none => simpa only [Serves, Outlook.look, Nat.max_assoc, Nat.max_self] using h
  | some t =>
      obtain ⟨carries, views⟩ := h
      refine ⟨carries, ?_⟩
      rwa [show (o.look 1).seen - 1 = o.seen - 1 by simp only [Outlook.look]; omega] at views

theorem Views.consume (h : Views source file o s) (ps : List String) : Serves source file o (s.consume ps) := by
  have looked := h.look 1
  simp only [Scanner.consume]
  split
  · exact looked.advance.looked
  · exact looked

theorem Views.setMode (h : Views source file o s) (m : Mode) :
    Views source file (if o.mode = m then o else ⟨o.reached, 0, 0, m⟩) (s.setMode m) := by
  obtain ⟨path, mode, within, reached, origin⟩ := h
  rw [Scanner.setMode, mode]
  split
  · exact ⟨path, mode, within, reached, origin⟩
  · exact ⟨path, rfl, within, reached, s.cursor, within, reached, rfl, fun _ => rfl, rfl⟩

theorem Views.skipTrivia (h : Views source file o s) (required : Bool) :
    Views source file (o.next (.skipTrivia required) (.bytes (s.skipTrivia required).1)) (s.skipTrivia required).2 := by
  simp only [skipTriviaOf]
  by_cases stays : (Trivia.opensComment s.cursor.skip.rest ||
      (required && s.cursor.skip.place.offset - s.cursor.place.offset == 0)) = true
  · simp only [if_pos stays]
    exact h
  · simp only [if_neg stays, Outlook.next]
    obtain ⟨path, mode, within, reached, c, inside, offset, same, unseen, ahead⟩ := h
    have reaches := s.cursor.reachesSkip
    have farther : s.cursor.skip.place.offset =
        o.reached + (s.cursor.skip.place.offset - s.cursor.place.offset) := by
      have behind := reaches.offset
      omega
    refine ⟨path, mode, reaches.within within, farther, ?_⟩
    -- With nothing ahead the comments go with the trivia; what is ahead was read in front of it and keeps them.
    by_cases none : o.seen = 0
    · refine ⟨s.cursor.skip, reaches.within within, ?_, rfl, fun _ => rfl, ?_⟩
      · rw [if_pos none]
        exact farther
      · rw [ahead, none]
        rfl
    · refine ⟨c, inside, ?_, ?_, fun unseen => absurd unseen none, ahead⟩
      · simp only [if_neg none]
        omega
      · rw [same]
        exact (Cursor.skipSkip _).symm

theorem Serves.asked {r : Option Token × Scanner} (h : Serves source file o r) {call : Call}
    (takes : call = .advance ∨ ∃ ps, call = .consume ps) :
    (∀ p ∈ (call.takes (.token r.1)).map (o, ·), p.2.Carries source file (p.1.reached - p.1.late)) ∧
      Views source file (o.next call (.token r.1)) r.2 := by
  obtain ⟨t, s⟩ := r
  obtain rfl | ⟨ps, rfl⟩ := takes
  all_goals
    cases t with
    | none => exact ⟨List.forall_mem_nil _, h⟩
    | some t => exact ⟨List.forall_mem_singleton.mpr h.1, h.2⟩

theorem Views.ask {session : Session Scanner} (h : Views source file o session.scanner) {call : Call} (plain : call.plain = true) :
    (∀ p ∈ (call.takes (Scanner.ask session call).1).map (o, ·), p.2.Carries source file (p.1.reached - p.1.late)) ∧
      Views source file (o.next call (Scanner.ask session call).1) (Scanner.ask session call).2.scanner := by
  cases call with
  | current => exact ⟨List.forall_mem_nil _, h.look 1⟩
  | atEnd => exact ⟨List.forall_mem_nil _, h.look 1⟩
  | peek => exact ⟨List.forall_mem_nil _, h.look 2⟩
  | setMode m => exact ⟨List.forall_mem_nil _, h.setMode m⟩
  | skipTrivia required => exact ⟨List.forall_mem_nil _, h.skipTrivia required⟩
  | lastEnd | checkpoint => exact ⟨List.forall_mem_nil _, h⟩
  | readText | rewind => cases plain
  | advance => exact h.advance.asked (.inl rfl)
  | consume ps => exact (h.consume ps).asked (.inr ⟨ps, rfl⟩)

theorem Views.run {session : Session Scanner} (h : Views source file o session.scanner) {calls : List Call}
    (plain : ∀ call ∈ calls, call.plain = true) :
    ∀ p ∈ o.tokens calls (Session.run Scanner.ask calls session).1, p.2.Carries source file (p.1.reached - p.1.late) := by
  induction calls generalizing o session with
  | nil => exact List.forall_mem_nil _
  | cons call calls ih =>
      obtain ⟨first, others⟩ := List.forall_mem_cons.mp plain
      obtain ⟨carries, views⟩ := h.ask first
      exact List.forall_mem_append.mpr ⟨carries, ih views others⟩

theorem startViews (source : String) (file : Option String) : Views source file .start (start source file) :=
  ⟨rfl, rfl, Cursor.startWithin source, rfl, .start source, Cursor.startWithin source, rfl, rfl, fun _ => rfl, rfl⟩

theorem tokensHandedOut (o : Outlook) (calls : List Call) (answers : List Answer) :
    (o.tokens calls answers).map Prod.snd = handedOut calls answers := by
  induction calls generalizing o answers with
  | nil => rfl
  | cons call calls ih =>
      cases answers with
      | nil => rfl
      | cons answer answers =>
          simp only [Outlook.tokens, handedOut, List.map_append, List.map_map, ih]
          simp only [Function.comp_def, List.map_id']

/-- Every token that is handed out comes with the comments behind the last one and behind what was skipped until it was looked
at, and with no others. Where nothing was skipped since it was looked at, these are the comments behind the place reached. -/
theorem commentsAttached (source : String) (file : Option String) {calls : List Call}
    (plain : ∀ call ∈ calls, call.plain = true) :
    let answers := (Session.run ask calls (session source file)).1
    (Outlook.start.tokens calls answers).map Prod.snd = handedOut calls answers ∧
      ∀ o t, (o, t) ∈ Outlook.start.tokens calls answers → t.Carries source file (o.reached - o.late) ∧
        (o.late = 0 → t.Carries source file o.reached) := by
  intro answers
  refine ⟨tokensHandedOut _ _ _, fun o t inside => ?_⟩
  have views : Views source file .start (session source file).scanner := startViews source file
  have carries := views.run plain (o, t) inside
  refine ⟨carries, fun none => ?_⟩
  rwa [none, Nat.sub_zero] at carries

theorem commentsAttachedSkipping :
    let calls := [.peek, .advance, .skipTrivia true, .setMode .jsx, .current, .consume ["/"], .peek, .skipTrivia true, .advance]
    let source := "a /*b*/ / // c\n d"
    let answers := (Session.run ask calls (session source none)).1
    (∀ call ∈ calls, call.plain = true) ∧
      (Outlook.start.tokens calls answers).map (fun p => (p.1.reached, p.1.late, p.2.text, p.2.comments.map (·.text))) =
        [(0, 0, "a", []), (8, 0, "/", []), (16, 7, "d", [" c"])] ∧
      (Outlook.start.tokens calls answers).map Prod.snd = handedOut calls answers ∧
      ∀ o t, (o, t) ∈ Outlook.start.tokens calls answers → t.Carries source none (o.reached - o.late) ∧
        (o.late = 0 → t.Carries source none o.reached) := by
  intro calls source answers
  have plain : ∀ call ∈ calls, call.plain = true := by decide
  exact ⟨plain, by decide +kernel, commentsAttached source none plain⟩

theorem skippedCommentAttached :
    let calls := [.current, .skipTrivia false, .advance]
    let source := "/*c*/ a"
    ∃ o t, (∀ call ∈ calls, call.plain = true) ∧
      Outlook.start.tokens calls (Session.run ask calls (session source none)).1 = [(o, t)] ∧ t.comments.length = 1 ∧
      ¬t.Carries source none o.reached := by
  intro calls source
  refine ⟨⟨6, 6, 1, .script⟩, ⟨.identifier "a", [⟨.block, "c", ⟨.origin, ⟨0, 5, some 5, 5⟩, none⟩⟩],
    ⟨⟨0, 6, some 6, 6⟩, ⟨0, 7, some 7, 7⟩, none⟩⟩, by decide, by decide +kernel, rfl, ?_⟩
  rintro ⟨c, c', -, reached, start, only⟩
  have read := (only _).mpr rfl
  have none := read.stays (by rw [reached]; exact Nat.le_of_eq (congrArg Position.offset start))
  cases none

end Scanner

end JsxTree
