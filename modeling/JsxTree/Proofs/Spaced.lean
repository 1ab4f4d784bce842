import JsxTree.Proofs.Clipped

/-! Blanks between tokens. Put in front of the first token, behind the last one or between two of them that follow one
another, and not inside a comment, they change nothing in what is read but the spans. -/
namespace JsxTree

open Lexeme (Avoids avoidsCons)

variable {e : Char} {es as blanks back : List Char}

section Ahead

theorem blankOther (blank : Trivia.isBlank e = true) :
    (e == '/' || e == '*') = false ∧ e.isDigit = false ∧ ∀ m, ∀ o ∈ Lexeme.punctuators m, e ∉ o.toList := by
  refine ⟨?_, ?_, fun m o known inside => ?_⟩
  · rw [Bool.or_eq_false_iff, beq_eq_false_iff_ne, beq_eq_false_iff_ne]
    constructor <;>
    · rintro rfl
      cases blank
  · refine Bool.eq_false_iff.mpr fun digit => ?_
    rw [Lexeme.digitUnblank digit] at blank
    cases blank
  · have solid : (Lexeme.punctuators m).all fun o => o.toList.all fun e => !Lexeme.blankCodes.contains e.toNat := by
      cases m <;> decide
    have solid := List.all_eq_true.mp (List.all_eq_true.mp solid o known) e inside
    rw [List.contains_iff_mem.mpr (Lexeme.blankCode blank)] at solid
    cases solid

theorem blankSwap (blank : Trivia.isBlank e = true) (old es : List Char) : Swap old (e :: es) where
  -- What a test can see is two characters at most: with two of them in front the blank is out of its sight.
  avoids {p mid} free stop := by
    cases mid with
    | nil => exact avoidsCons (free e blank)
    | cons f mid => exact stop
  closed {as} nonempty closed := by
    rcases as with _ | ⟨a, _ | ⟨b, as⟩⟩
    · exact absurd rfl nonempty
    · refine Bool.eq_false_iff.mpr fun opens => ?_
      simp only [List.cons_append, List.nil_append, Trivia.opensComment] at opens
      split at opens
      · rename_i same
        obtain ⟨-, rfl, -⟩ := List.cons.inj same |>.imp_right List.cons.inj
        cases blank
      · cases opens
    · exact @Lexeme.opensCommentFront (a :: b :: as ++ old) _ (List.prefix_refl [a, b]) closed
  solid {as} nonempty closed solid := by
    rcases as with _ | ⟨a, _ | ⟨b, as⟩⟩
    · exact absurd rfl nonempty
    · by_cases slash : a = '/'
      · rw [slash]
        exact Lexeme.splitPieceSlash (avoidsCons (blankOther blank).1)
      · refine Lexeme.splitPieceNone (Bool.eq_false_iff.mpr fun blank => ?_) slash
        rw [List.singleton_append, Trivia.splitPieceBlank blank] at solid
        cases solid
    · exact @Trivia.splitPieceFront (a :: b :: as ++ old) _ (List.prefix_refl [a, b]) closed solid
  numberless {as} nonempty none := by
    rcases as with _ | ⟨a, _ | ⟨b, as⟩⟩
    · exact absurd rfl nonempty
    · by_cases point : a = '.'
      · rw [point]
        exact (blankOther blank).2.1
      · have digitless : a.isDigit = false := by
          cases old <;> simpa [Lexeme.startsNumber, point] using none
        simpa [Lexeme.startsNumber, point] using digitless
    · exact @Lexeme.startsNumberFront (a :: b :: as ++ old) _ (List.prefix_refl [a, b]) none
  fits {m o as} known nonempty fits := by
    refine List.IsPrefix.trans ?_ (List.prefix_append as old)
    rcases List.prefix_or_prefix_of_prefix fits (List.prefix_append as (e :: es)) with short | ⟨more, whole⟩
    · exact short
    · rw [← whole, List.prefix_append_right_inj] at fits
      cases more with
      | nil =>
          rw [← whole, List.append_nil]
      | cons f more =>
          obtain ⟨rfl, -⟩ := List.cons_prefix_cons.mp fits
          refine absurd ?_ ((blankOther blank).2.2 m o known)
          rw [← whole]
          simp

end Ahead

namespace Trivia

theorem splitLine {text : List Char} (line : ∀ e ∈ text, (!endsLine e) = true) (stop : Avoids (!endsLine ·) back)
    (all : ∀ e ∈ blanks, isBlank e = true) :
    (split ('/' :: '/' :: (text ++ (blanks ++ back)))).2 = (split back).2 := by
  have left : ∀ blanks, (∀ e ∈ blanks, isBlank e = true) → ∃ rest, (∀ e ∈ rest, isBlank e = true) ∧
      (blanks ++ back).dropWhile (!endsLine ·) = rest ++ back := by
    intro blanks all
    induction blanks with
    | nil => exact ⟨[], all, @Lexeme.dropWhileThen _ _ [] (List.forall_mem_nil _) stop⟩
    | cons e blanks ih =>
        by_cases goes : (!endsLine e) = true
        · obtain ⟨rest, blank, dropped⟩ := ih (List.forall_mem_cons.mp all).2
          exact ⟨rest, blank, (List.dropWhile_cons_of_pos (p := (!endsLine ·)) goes).trans dropped⟩
        · exact ⟨e :: blanks, all, List.dropWhile_cons_of_neg goes⟩
  obtain ⟨rest, blank, dropped⟩ := left blanks all
  rw [splitMore (by rw [splitPiece]), List.dropWhile_append_of_pos line, dropped]
  exact splitBlanks blank

theorem pieceSpaced {cs : List Char} {p : Piece} (found : splitPiece cs = some (p, back))
    (all : ∀ e ∈ blanks, isBlank e = true) : (split (p.raw ++ (blanks ++ back))).2 = (split back).2 := by
  unfold splitPiece at found
  split at found
  · obtain ⟨rfl, rfl⟩ := Prod.mk.inj (Option.some.inj found)
    exact splitLine (Lexeme.ofTakeWhile _ _) (Lexeme.avoidsDropWhile _ _) all
  · simp only [Option.map_eq_some_iff, Prod.mk.injEq, Prod.exists] at found
    obtain ⟨text, rest, found, rfl, rfl⟩ := found
    have again : splitPiece ((Piece.block text).raw ++ (blanks ++ rest)) = some (.block text, blanks ++ rest) := by
      simp only [Piece.raw, List.cons_append, List.append_assoc, List.nil_append, splitPiece,
        splitBlockAgain found (blanks ++ rest), Option.map_some]
    rw [splitMore again]
    exact splitBlanks all
  · split at found
    · rename_i blank
      cases found
      exact @splitBlanks (_ :: blanks) back (List.forall_mem_cons.mpr ⟨blank, all⟩)
    · cases found
  · cases found

theorem splitSpaced {cs : List Char} {ps qs : List Piece} (pieces : (split cs).1 = ps ++ qs) (whole : cs = raw ps ++ back)
    (all : ∀ e ∈ blanks, isBlank e = true) : (split (raw ps ++ (blanks ++ back))).2 = (split cs).2 := by
  induction ps generalizing cs with
  | nil =>
      rw [whole]
      exact splitBlanks all
  | cons p ps ih =>
      cases found : splitPiece cs with
      | none =>
          rw [splitStop found] at pieces
          cases pieces
      | some piece =>
          obtain ⟨q, rest⟩ := piece
          rw [splitMore found] at pieces ⊢
          obtain ⟨rfl, later⟩ := List.cons.inj pieces
          have split := splitPieceSplits found
          have spread : raw (q :: ps) = q.raw ++ raw ps := rfl
          rw [whole, spread, List.append_assoc, List.append_cancel_left_eq] at split
          rw [spread, List.append_assoc]
          -- The blanks are right behind the last piece. An earlier one has the next piece behind it, as before.
          cases ps with
          | nil =>
              obtain rfl : back = rest := split
              exact pieceSpaced found all
          | cons r ps =>
              have again := ih later split.symm
              obtain ⟨f, fs, text⟩ := List.exists_cons_of_length_pos (rawPos r)
              have keeps : Lexeme.Avoids (!endsLine ·) (raw (r :: ps) ++ back) →
                  Lexeme.Avoids (!endsLine ·) (raw (r :: ps) ++ (blanks ++ back)) := by
                rw [raw, List.flatMap_cons, text]
                exact id
              rw [← split] at found
              exact (congrArg Prod.snd (splitMore (@splitPieceAgain _ [] _ _ _ keeps found))).trans again

end Trivia

namespace Cursor

variable {m : Mode} {k : Token.Kind} {b c c' : Cursor}

/-- A place, told by the text behind it, that is among the trivia here and not inside a comment. -/
def Opens (back : List Char) (c : Cursor) : Prop :=
  ∃ ps qs, (Trivia.split c.rest).1 = ps ++ qs ∧ c.rest = Trivia.raw ps ++ back

theorem opensEnd (nothing : c.skip.rest = []) : c.Opens [] := by
  refine ⟨(Trivia.split c.rest).1, [], (List.append_nil _).symm, ?_⟩
  have split := Trivia.splitSplits c.rest
  rwa [show (Trivia.split c.rest).2 = [] from nothing] at split

theorem Opens.skip (h : c.Opens back) : c.skip.rest <:+ back := by
  obtain ⟨ps, qs, pieces, whole⟩ := h
  have split := Trivia.splitSplits c.rest
  rw [pieces] at split
  simp only [Trivia.raw, List.flatMap_append, List.append_assoc] at split whole
  rw [split, List.append_cancel_left_eq] at whole
  exact ⟨_, whole⟩

def Spread (blanks back : List Char) (c b : Cursor) : Prop :=
  (∃ mid, c.rest = mid ++ back ∧ b.rest = mid ++ (blanks ++ back)) ∨ (b.rest = c.rest ∧ c.rest <:+ back)

theorem Spread.skip (h : c.Spread blanks back b) (opened : c.Opens back ∨ c.rest <:+ back)
    (all : ∀ e ∈ blanks, Trivia.isBlank e = true) : b.skip.rest = c.skip.rest ∧ c.skip.rest <:+ back := by
  have passed : c.skip.rest <:+ c.rest := ⟨_, (Trivia.splitSplits c.rest).symm⟩
  rcases h with ⟨mid, front, behind⟩ | ⟨same, later⟩
  · have opened : c.Opens back := by
      rcases opened with opened | short
      · exact opened
      · have here : c.rest = back := short.eq_of_length_le (by rw [front, List.length_append]; omega)
        exact ⟨[], _, rfl, here⟩
    refine ⟨?_, opened.skip⟩
    obtain ⟨ps, qs, pieces, whole⟩ := opened
    have again := Trivia.splitSpaced pieces whole all
    rw [front, List.append_cancel_right_eq] at whole
    rw [← whole, ← behind] at again
    exact again
  · exact ⟨skipSame same, passed.trans later⟩

end Cursor

namespace Item

def Spares (back : List Char) : Item → Prop
  | .token front behind => back <:+ behind.rest ∨ front.Opens back ∨ front.rest <:+ back
  | .text front behind => (back <:+ behind.rest ∧ behind.rest ≠ back) ∨ (front.rest <:+ back ∧ front.rest ≠ back)
  | .bare here => here.rest ≠ back

end Item

section Passing

open Cursor

variable {m : Mode} {k : Token.Kind} {b c c' : Cursor} {raw : String}

theorem tokenSpread (all : ∀ f ∈ e :: es, Trivia.isBlank f = true) (spread : c.Spread (e :: es) back b)
    (next : c.next? m = some (k, c')) (valid : k.isInvalid = false) (spared : (Item.token c c').Spares back) :
    ∃ b', b.next? m = some (k, b') ∧ c'.Spread (e :: es) back b' := by
  have through : (c.Opens back ∨ c.rest <:+ back) → ∃ b', b.next? m = some (k, b') ∧ c'.Spread (e :: es) back b' := by
    intro opened
    obtain ⟨same, later⟩ := spread.skip opened all
    obtain ⟨b', again, rest⟩ := nextSame same next
    obtain ⟨raw, front, -⟩ := skipReaches next
    exact ⟨b', again, .inr ⟨rest, List.IsSuffix.trans ⟨raw, front.symm⟩ later⟩⟩
  rcases spared with ⟨mid', rest⟩ | opened
  · rcases spread with ⟨mid, front, behind⟩ | ⟨same, later⟩
    · obtain ⟨b', again, rest'⟩ :=
        nextSwap (blankSwap (List.forall_mem_cons.mp all).1 back (es ++ back)) front behind next valid rest.symm
      exact ⟨b', again, .inl ⟨mid', rest.symm, rest'⟩⟩
    · exact through (.inr later)
  · exact through opened

theorem textSpread (spread : c.Spread blanks back b) (run : c.text? = some (raw, c'))
    (spared : (Item.text c c').Spares back) : ∃ b', b.text? = some (raw, b') ∧ c'.Spread blanks back b' := by
  obtain ⟨⟨splits, -⟩, nonempty⟩ := textTraces run
  have stop := Lexeme.avoidsDropWhile (!Lexeme.endsText ·) c.rest
  rw [← (textCut run).2] at stop
  rcases spread with ⟨mid, front, behind⟩ | ⟨same, later⟩
  · rcases spared with ⟨⟨mid', rest⟩, apart⟩ | ⟨short, apart⟩
    · rw [← rest, ← List.append_assoc, front, List.append_cancel_right_eq] at splits
      rw [← rest] at stop
      cases mid' with
      | nil => exact absurd rest.symm apart
      | cons f mid' =>
          rw [splits, List.append_assoc] at behind
          obtain ⟨b', again, rest'⟩ :=
            @textAt _ (f :: mid' ++ (blanks ++ back)) _ nonempty (textPlain run) stop behind
          exact ⟨b', again, .inl ⟨_, rest.symm, rest'⟩⟩
    · exact absurd (short.eq_of_length_le (by rw [front, List.length_append]; omega)) apart
  · rw [← same] at splits
    obtain ⟨b', again, rest⟩ := textAt nonempty (textPlain run) stop splits
    exact ⟨b', again, .inr ⟨rest, List.IsSuffix.trans ⟨_, by rw [← same]; exact splits.symm⟩ later⟩⟩

theorem textlessSpread (spread : c.Spread blanks back b) (textless : c.text? = none) (apart : c.rest ≠ back) :
    b.text? = none := by
  rw [textlessIff] at textless ⊢
  rcases spread with ⟨mid, front, behind⟩ | ⟨same, -⟩
  · cases mid with
    | nil => exact absurd front apart
    | cons f mid =>
        rw [front] at textless
        rw [behind]
        exact textless
  · rwa [same]

def Passage.spaced (e : Char) (es back : List Char) (all : ∀ f ∈ e :: es, Trivia.isBlank f = true) : Passage where
  rel := Spread (e :: es) back
  spares := Item.Spares back
  ends c := c.skip.rest = [] ∧ (c.Opens back ∨ c.rest <:+ back)
  token _ _ _ _ _ spread next valid spared := tokenSpread all spread next valid spared
  text _ _ _ _ spread run spared := textSpread spread run spared
  bare _ _ spread textless apart := textlessSpread spread textless apart
  nothing _ _ _ spread ends := nextNone.mpr ((spread.skip ends.2 all).1.trans ends.1)

end Passing

namespace Grammar

open Cursor JsxTree.Parser

variable {x : Setting} {ph : Phrase} {file : Option String} {chained : Bool} {m : Mode} {d : Nat} {a b c c' c₁ : Cursor}
  {n object : Node} {items before after : List Item}

section Backs

def Backs (c : Cursor) (items : List Item) (c' : Cursor) : Prop :=
  (items = [] ∧ c = c') ∨ ∃ before a, items = before ++ [.token a c']

theorem backsToken : Backs c (before ++ [.token a c']) c' := .inr ⟨_, _, rfl⟩

theorem Backs.behind (before : List Item) (h : Backs c' after c₁) : Backs c (before ++ .token a c' :: after) c₁ := by
  rcases h with ⟨rfl, rfl⟩ | ⟨more, b, rfl⟩
  · exact backsToken
  · exact .inr ⟨before ++ .token a c' :: more, b, by rw [List.append_assoc, List.cons_append]⟩

theorem Backs.append (first : Backs c items c₁) (rest : Backs c₁ after c') : Backs c (items ++ after) c' := by
  rcases rest with ⟨rfl, rfl⟩ | ⟨more, b, rfl⟩
  · rwa [List.append_nil]
  · exact .inr ⟨items ++ more, b, (List.append_assoc _ _ _).symm⟩

theorem SpellsMembers.backs (h : SpellsMembers file object c n c' items) : Backs c items c' := by
  induction h with
  | stop => exact .inl ⟨rfl, rfl⟩
  | step _ _ _ ih => exact ih.behind [_]

theorem SpellsName.backs (h : SpellsName file chained n c c' items) : Backs c items c' := by
  cases h with
  | simple => exact .inr ⟨[], _, rfl⟩
  | chain _ _ members => exact members.backs.behind []
  | namespaced => exact .inr ⟨[_, _], _, rfl⟩

theorem Spells.backs (h : Spells x ph m d c c' items) (tokened : ph.Tokened) : Backs c items c' := by
  induction h with
  | identifier | literal | stringValue => exact .inr ⟨[], _, rfl⟩
  | parenthesized | containerValue => exact backsToken
  | fragmentPrimary _ _ ih | elementPrimary _ _ ih | plainUnary _ _ ih | bottom _ ih | fragmentValue _ ih
  | elementValue _ ih => exact ih trivial
  | noSuffix | noOperand | noMoreArguments | noArguments | noAttribute => exact .inl ⟨rfl, rfl⟩
  | memberSuffix _ _ _ ih => exact (ih trivial).behind [_]
  | computedSuffix _ _ _ _ _ _ ihMore | callSuffix _ _ _ _ _ _ ihMore => exact (ihMore trivial).behind _
  | chain _ _ ih ihMore | level _ _ ih ihMore | arguments _ _ ih ihMore | attributes _ _ ih ihMore =>
      exact (ih trivial).append (ihMore trivial)
  | unary _ _ _ _ ih => exact (ih trivial).behind []
  | operand _ _ _ _ ih ihMore | moreArguments _ _ _ ih ihMore => exact ((ih trivial).behind []).append (ihMore trivial)
  | fragment => exact .inr ⟨_ ++ [_, _], _, (List.append_assoc _ [_, _] [_]).symm⟩
  | selfClosing => exact .inr ⟨_ ++ [_], _, (List.append_assoc _ [_] [_]).symm⟩
  | element => exact backsToken
  | spreadAttribute => exact backsToken
  | plainAttribute name => exact name.backs
  | valuedAttribute _ _ _ ih => exact (ih trivial).behind _
  | _ => exact tokened.elim

end Backs

theorem sparedBefore (strings : Strings a before c) (last : Backs a before c) (opened : c.Opens back) :
    ∀ item ∈ before, item.Spares back := by
  obtain ⟨ps, -, -, whole⟩ := opened
  have here : back <:+ c.rest := ⟨_, whole.symm⟩
  rcases last with ⟨rfl, -⟩ | ⟨more, a', rfl⟩
  · exact List.forall_mem_nil _
  · obtain ⟨b', first, rfl, advances, -⟩ := stringsSplit strings
    have longer : ∀ {b₁ : Cursor}, b₁.Reaches b' → back <:+ b₁.rest ∧ b₁.rest ≠ back := by
      intro b₁ reaches
      have onward := reaches.trans b'.reachesSkip
      obtain ⟨raw, through, -⟩ := onward.trans advances.reaches
      have long := Nat.lt_of_lt_of_le advances.shorter onward.length
      refine ⟨here.trans ⟨raw, through.symm⟩, fun same => ?_⟩
      rw [same] at long
      exact Nat.not_lt_of_le here.length_le long
    intro item inside
    rcases List.mem_append.mp inside with inside | inside
    · have reaches := (first.within item inside).2
      cases item with
      | token => exact .inl (longer reaches).1
      | text => exact .inl (longer reaches)
      | bare => exact (longer reaches).2
    · obtain rfl := List.mem_singleton.mp inside
      exact .inl here

theorem sparedAfter (strings : Strings c after c') (first : after = [] ∨ ∃ b more, after = .token c b :: more)
    (opened : c.Opens back) : (∀ item ∈ after, item.Spares back) ∧ (c'.Opens back ∨ c'.rest <:+ back) := by
  rcases first with rfl | ⟨b, more, rfl⟩
  · obtain rfl : c = c' := strings
    exact ⟨List.forall_mem_nil _, .inl opened⟩
  obtain ⟨-, advances, later⟩ := strings
  have shorter : ∀ {b₁ : Cursor}, b.Reaches b₁ → b₁.rest <:+ back ∧ b₁.rest ≠ back := by
    intro b₁ reaches
    obtain ⟨raw, through, -⟩ := advances.reaches.trans reaches
    have short := Nat.lt_of_le_of_lt reaches.length advances.shorter
    refine ⟨List.IsSuffix.trans ⟨raw, through.symm⟩ opened.skip, fun same => ?_⟩
    rw [same] at short
    exact Nat.not_lt_of_le opened.skip.length_le short
  refine ⟨List.forall_mem_cons.mpr ⟨.inr (.inl opened), fun item inside => ?_⟩, .inr (shorter later.reaches).1⟩
  have reaches := (later.within item inside).1
  cases item with
  | token => exact .inr (.inr (shorter reaches).1)
  | text => exact .inr (shorter reaches)
  | bare => exact (shorter reaches).2

end Grammar

open Cursor Grammar JsxTree.Parser

section Source

variable {source : String} {config : Config} {file : Option String} {n : Node} {c c' : Cursor} {items : List Item}

def Consumes (source : String) (config : Config) (file : Option String) (n : Node) (items : List Item) : Prop :=
  ∃ c', Spells ⟨config, file⟩ (.expression n) .script 0 (.start source) c' items ∧ c'.next? .script = none

/-- The cursor in front of the first token, behind the last one, or between two that follow one another, with no run of
text and none looked for between them. -/
inductive Gap (source : String) (items : List Item) : Cursor → Prop where
  | front : Gap source items (.start source)
  | between {before after : List Item} {a c b : Cursor} (tokens : items = before ++ .token a c :: .token c b :: after) :
      Gap source items c
  | behind {c : Cursor} (all : Strings (.start source) items c) : Gap source items c

theorem Strings.unique {a : Cursor} (h : Strings a items c) (h' : Strings a items c') : c = c' := by
  induction items generalizing a with
  | nil => exact h.symm.trans h'
  | cons item items ih =>
      cases item with
      | token | text => exact ih h.2.2 h'.2.2
      | bare => exact ih h.2 (h.1 ▸ h'.2)

theorem Gap.parts (gap : Gap source items c) (fronts : Fronts .script (.start source) items c')
    (backs : Backs (.start source) items c') (strings : Strings (.start source) items c') :
    ∃ before after, items = before ++ after ∧ Strings (.start source) before c ∧ Strings c after c' ∧
      Backs (.start source) before c ∧ (after = [] ∨ ∃ b more, after = .token c b :: more) := by
  cases gap with
  | front =>
      refine ⟨[], items, rfl, rfl, strings, .inl ⟨rfl, rfl⟩, ?_⟩
      rcases fronts with ⟨nothing, -⟩ | ⟨k, b, more, -, -, first⟩
      · exact .inl nothing
      · exact .inr ⟨b, more, first⟩
  | @between before after a _ b tokens =>
      rw [tokens, List.append_cons] at strings
      obtain ⟨c₁, first, rest⟩ := stringsSplit strings
      obtain rfl := rest.1
      exact ⟨_, _, by rw [tokens, List.append_cons], first, rest, backsToken, .inr ⟨b, after, rfl⟩⟩
  | behind all =>
      obtain rfl := strings.unique all
      exact ⟨items, [], (List.append_nil _).symm, strings, rfl, backs, .inl rfl⟩

theorem spacedParses {e : Char} {es front back : List Char} (consumes : Consumes source config file n items)
    (gap : Gap source items c) (opened : c.Opens back) (whole : source.toList = front ++ back)
    (all : ∀ f ∈ e :: es, Trivia.isBlank f = true) :
    ∃ z, parse (String.ofList (front ++ e :: es ++ back)) config file = .ok z ∧ z.Alike n := by
  obtain ⟨c', spelled, ends⟩ := consumes
  have strings := spelled.strings
  obtain ⟨before, after, rfl, first, rest, last, next⟩ :=
    gap.parts (spelled.fronts trivial) (spelled.backs trivial) strings
  obtain ⟨later, passed⟩ := sparedAfter rest next opened
  have spared : (Passage.spaced e es back all).All (before ++ after) :=
    Passage.allAppend.mpr ⟨sparedBefore first last opened, later⟩
  have start : (Cursor.start source).Spread (e :: es) back (.start (String.ofList (front ++ e :: es ++ back))) :=
    .inl ⟨front, whole, by simp [Cursor.start]⟩
  have nothing : c'.skip.rest = [] := nextNone.mp ends
  obtain ⟨z, b', related, alike, reads⟩ :=
    Spells.carried (w := .spaced e es back all) spelled file (Nat.le_refl 0) spared start (.inl ⟨nothing, passed⟩)
  have ended := (Passage.spaced e es back all).nothing (m := .script) related ⟨nothing, passed⟩
  exact ⟨z, (parseIff _ config file z).mpr ⟨b', reads, ended⟩, alike⟩

/-- Blanks between tokens are irrelevant. Every source that is accepted is consumed item by item, and blanks put into any
gap, outside of the comments in it, leave the tree as it is but for spans. -/
theorem blanksBetweenTokens (accepted : parse source config file = .ok n) :
    (∃ items, Consumes source config file n items) ∧
      ∀ items (c : Cursor) front blanks back, Consumes source config file n items → Gap source items c → c.Opens back →
        source.toList = front ++ back → (∀ e ∈ blanks, Trivia.isBlank e = true) →
        ∃ z, parse (String.ofList (front ++ blanks ++ back)) config file = .ok z ∧ z.Alike n := by
  constructor
  · obtain ⟨c', reads, ends⟩ := (parseIff source config file n).mp accepted
    obtain ⟨items, spelled⟩ := reads.spelled
    exact ⟨items, c', spelled, ends⟩
  · intro items c front blanks back consumes gap opened whole all
    cases blanks with
    | nil =>
        refine ⟨n, ?_, rfl⟩
        rw [List.append_nil, ← whole, String.ofList_toList]
        exact accepted
    | cons e es => exact spacedParses consumes gap opened whole all

theorem blanksAroundElement : ∃ n, parse "<a> b </a> // c" {} none = .ok n ∧
    (∃ z, parse "\n <a> b </a> // c" {} none = .ok z ∧ z.Alike n) ∧
    ∃ z, parse "<a> b </a> // c\t" {} none = .ok z ∧ z.Alike n := by
  obtain ⟨n, accepted, -⟩ : ∃ n, parse "<a> b </a> // c" {} none = .ok n ∧ (n.kind == .element) = true :=
    acceptedOf (by decide +kernel)
  obtain ⟨⟨items, consumes⟩, spaced⟩ := blanksBetweenTokens accepted
  refine ⟨n, accepted, ?_, ?_⟩
  · have start : (Cursor.start "<a> b </a> // c").Opens "<a> b </a> // c".toList := ⟨[], _, rfl, rfl⟩
    have text : "\n <a> b </a> // c" = String.ofList ([] ++ "\n ".toList ++ "<a> b </a> // c".toList) := by decide +kernel
    rw [text]
    exact spaced items _ _ _ _ consumes .front start rfl (List.all_eq_true.mp (by decide +kernel))
  · have text : "<a> b </a> // c\t" = String.ofList ("<a> b </a> // c".toList ++ "\t".toList ++ []) := by decide +kernel
    obtain ⟨c', spelled, ends⟩ := consumes
    have opened := opensEnd (nextNone.mp ends)
    rw [text]
    exact spaced items c' _ _ _ ⟨c', spelled, ends⟩ (.behind spelled.strings) opened (List.append_nil _).symm
      (List.all_eq_true.mp (by decide +kernel))

end Source

end JsxTree
