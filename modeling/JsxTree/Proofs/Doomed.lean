import JsxTree.Proofs.Clipped
import JsxTree.Proofs.Failures

/-! Failing somewhere behind a cut. In a text that goes on in another way behind a cut, all that is in front of the cut
is read as before. Where the closing tag of an element is at the cut and fails, so does everything around the element. -/
namespace JsxTree

open Cursor

variable {cut : Cut} {source edited : String} {m : Mode} {b c c' c₁ : Cursor} {k : Token.Kind} {raw o : String}

section Beside

theorem tokenBeside (related : c.Clipped cut b ∧ b.Within edited) (next : c.next? m = some (k, c'))
    (valid : k.isInvalid = false) (later : c'.Before cut) :
    ∃ b', b.next? m = some (k, b') ∧ c'.Clipped cut b' ∧ b'.Within edited := by
  obtain ⟨b', again, clipped⟩ := nextClipped related.1 next valid later
  exact ⟨b', again, clipped, (nextReaches again).within related.2⟩

theorem textBeside (related : c.Clipped cut b ∧ b.Within edited) (run : c.text? = some (raw, c'))
    (later : c'.Before cut) : ∃ b', b.text? = some (raw, b') ∧ c'.Clipped cut b' ∧ b'.Within edited := by
  obtain ⟨b', again, clipped⟩ := textClipped related.1 run later
  exact ⟨b', again, clipped, (textTraces again).1.reaches.within related.2⟩

def Cut.beside (cut : Cut) (edited : String) : Passage where
  rel c b := c.Clipped cut b ∧ b.Within edited
  spares := Item.Before cut
  ends c := cut.new = [] ∧ c.rest = cut.old
  token _ _ _ _ _ related next valid later := tokenBeside related next valid later
  text _ _ _ _ related run later := textBeside related run later
  bare _ _ related textless _ := textlessClipped related.1 textless
  nothing _ _ _ related ends := clippedEnd related.1 ends.1 ends.2

def Cursor.Ahead (cut : Cut) (m : Mode) (c : Cursor) : Prop :=
  ∃ k c₁, c.next? m = some (k, c₁) ∧ k.isInvalid = false ∧ c₁.Before cut

theorem aheadTakes (takes : c.Takes m o c₁) (later : c₁.Before cut) : c.Ahead cut m := ⟨_, c₁, takes, rfl, later⟩

theorem Cursor.Ahead.before (h : c.Ahead cut m) : c.Before cut := by
  obtain ⟨k, c₁, next, -, later⟩ := h
  exact (nextReaches next).before later

theorem Cursor.Ahead.sees (h : c.Ahead cut m) : (cut.beside edited).Sees m c := .inr h

theorem Cursor.Ahead.takes (h : c.Ahead cut m) (takes : c.Takes m o c₁) : c₁.Before cut := by
  obtain ⟨k, c₂, next, -, later⟩ := h
  rw [takes, Option.some.injEq, Prod.mk.injEq] at next
  rw [next.2]
  exact later

end Beside

namespace Grammar

open JsxTree.Parser

variable {x : Setting} {ph : Phrase} {d : Nat} {n own : Node} {el : Node}

theorem Reads.beside (h : Reads x ph m d c c') (related : (cut.beside edited).rel c b) (later : c'.Before cut)
    (faces : ph.Faces (cut.beside edited) m c') : ph.Anew (cut.beside edited).rel x m d b c' := by
  obtain ⟨items, spelled⟩ := h.spelled
  have early := spelled.strings.before later
  exact Spells.carried (w := cut.beside edited) spelled x.file (Nat.le_refl d) early related faces

theorem ReadsName.beside {chained : Bool} (h : ReadsName x.file chained n c c') (related : (cut.beside edited).rel c b)
    (ahead : c'.Ahead cut .jsx) :
    ∃ z b', (cut.beside edited).rel c' b' ∧ z.Alike n ∧ ReadsName x.file chained z b b' := by
  obtain ⟨items, spelled⟩ := h.spelled
  have early := spelled.strings.before ahead.before
  exact SpellsName.carried (w := cut.beside edited) spelled x.file early related ahead.sees

theorem Reads.ahead (h : Reads x ph m d c c') (tokened : ph.Tokened) (ahead : c'.Ahead cut m) : c.Ahead cut m := by
  obtain ⟨items, spelled⟩ := h.spelled
  rcases spelled.fronts tokened with ⟨-, rfl⟩ | ⟨k, c₁, more, next, valid, rfl⟩
  · exact ahead
  · exact ⟨k, c₁, next, valid, spelled.strings.before ahead.before _ List.mem_cons_self⟩

theorem ReadsName.ahead {file : Option String} {chained : Bool} (h : ReadsName file chained n c c')
    (ahead : c'.Ahead cut .jsx) : c.Ahead cut .jsx := by
  obtain ⟨items, spelled⟩ := h.spelled
  rcases spelled.fronts with ⟨-, rfl⟩ | ⟨k, c₁, more, next, valid, rfl⟩
  · exact ahead
  · exact ⟨k, c₁, next, valid, spelled.strings.before ahead.before _ List.mem_cons_self⟩

theorem expressionUndotted (h : Reads x (.expression n) m d c c') : c.Stops ["..."] m := by
  obtain ⟨k, _, next, starts, -⟩ := h.begins
  refine stopsOf next fun o member kind => ?_
  cases List.mem_singleton.mp member
  rw [kind] at starts
  cases starts

theorem childrenTextless {ns : List Node} (h : Reads x (.children ns) m d c c') : c'.text? = none := by
  generalize row : Phrase.children ns = ph at h
  induction h generalizing ns with
  | noChild textless => exact textless
  | children _ _ _ ih => exact ih rfl
  | _ => cases row

section Below

variable {form : Form Node} {span span' whole : Span}

theorem nodeBelow (inside : el ∈ (⟨form, span⟩ : Node).preorder) :
    el = ⟨form, span⟩ ∨ ∃ c ∈ form.children, el ∈ c.preorder := by
  rw [Node.preorderEq] at inside
  rcases List.mem_cons.mp inside with same | below
  · exact .inl same
  · exact .inr (List.mem_flatMap.mp below)

theorem otherBelow (element : el.kind = .element) (inside : el ∈ (⟨form, span⟩ : Node).preorder)
    (other : (form.kind == .element) = false) : ∃ c ∈ form.children, el ∈ c.preorder := by
  rcases nodeBelow inside with rfl | below
  · rw [show form.kind = .element from element] at other
    cases other
  · exact below

theorem leafBelow (element : el.kind = .element) (inside : el ∈ (⟨form, span⟩ : Node).preorder)
    (other : (form.kind == .element) = false) (leaf : form.children = []) : False := by
  obtain ⟨c, child, -⟩ := otherBelow element inside other
  rw [leaf] at child
  cases child

theorem onlyBelow (element : el.kind = .element) (inside : el ∈ (⟨form, span⟩ : Node).preorder)
    (other : (form.kind == .element) = false) (only : form.children = [n]) : el ∈ n.preorder := by
  obtain ⟨c, child, below⟩ := otherBelow element inside other
  rw [only] at child
  rwa [← List.mem_singleton.mp child]

theorem bothBelow {l r : Node} (element : el.kind = .element) (inside : el ∈ (⟨form, span⟩ : Node).preorder)
    (other : (form.kind == .element) = false) (both : form.children = [l, r]) : el ∈ l.preorder ∨ el ∈ r.preorder := by
  obtain ⟨c, child, below⟩ := otherBelow element inside other
  rw [both] at child
  rcases List.mem_cons.mp child with rfl | child
  · exact .inl below
  · exact .inr ((List.mem_singleton.mp child) ▸ below)

theorem callBelow {callee : Node} {ns : List Node} (element : el.kind = .element)
    (inside : el ∈ (⟨.call callee ns, span⟩ : Node).preorder) : el ∈ callee.preorder ∨ ∃ n ∈ ns, el ∈ n.preorder := by
  obtain ⟨n, child, below⟩ := otherBelow element inside rfl
  rw [childrenCall] at child
  rcases List.mem_cons.mp child with rfl | member
  · exact .inl below
  · exact .inr ⟨n, member, below⟩

theorem joinBelow {l r : Node} {join : Join} (element : el.kind = .element)
    (inside : el ∈ (⟨join.form o l r, span⟩ : Node).preorder) : el ∈ l.preorder ∨ el ∈ r.preorder := by
  cases join with
  | binary => exact bothBelow element inside rfl rfl
  | logical => exact bothBelow element inside rfl rfl

theorem chainBelow (element : el.kind = .element) (name : NameChain n) (inside : el ∈ n.preorder) : False := by
  induction name with
  | own => exact leafBelow element inside rfl rfl
  | member _ _ ih =>
      rcases bothBelow element inside rfl rfl with below | below
      · exact ih below
      · exact leafBelow element below rfl rfl

theorem nameBelow {chained : Bool} (element : el.kind = .element) (name : NameFormed chained n)
    (inside : el ∈ n.preorder) : False := by
  cases name with
  | simple => exact leafBelow element inside rfl rfl
  | chain members => exact chainBelow element members inside
  | namespaced =>
      rcases bothBelow element inside rfl rfl with below | below
      · exact leafBelow element below rfl rfl
      · exact leafBelow element below rfl rfl

theorem fragmentBelow {ns : List Node} (element : el.kind = .element)
    (inside : el ∈ (⟨.fragment ⟨.openingFragment, span⟩ ⟨.closingFragment, span'⟩ (presentList ns),
      whole⟩ : Node).preorder) : ∃ n ∈ ns, el ∈ n.preorder := by
  obtain ⟨n, child, below⟩ := otherBelow element inside rfl
  rw [childrenFragment, List.mem_cons, List.mem_append, List.mem_singleton] at child
  rcases child with rfl | member | rfl
  · exact (leafBelow element below rfl rfl).elim
  · exact ⟨n, member, below⟩
  · exact (leafBelow element below rfl rfl).elim

theorem tagBelow {opening : Node} (inside : el ∈ (⟨.element opening none none, span⟩ : Node).preorder) :
    el = ⟨.element opening none none, span⟩ ∨ el ∈ opening.preorder := by
  rcases nodeBelow inside with same | ⟨n, child, below⟩
  · exact .inl same
  · obtain rfl := List.mem_singleton.mp child
    exact .inr below

theorem elementBelow {opening closing : Node} {ns : List Node}
    (inside : el ∈ (⟨.element opening (some closing) (presentList ns), span⟩ : Node).preorder) :
    el = ⟨.element opening (some closing) (presentList ns), span⟩ ∨ el ∈ opening.preorder ∨
      (∃ n ∈ ns, el ∈ n.preorder) ∨ el ∈ closing.preorder := by
  rcases nodeBelow inside with same | ⟨n, child, below⟩
  · exact .inl same
  · rw [childrenElement, List.mem_cons, List.mem_append, List.mem_singleton] at child
    rcases child with rfl | member | rfl
    · exact .inr (.inl below)
    · exact .inr (.inr (.inl ⟨n, member, below⟩))
    · exact .inr (.inr (.inr below))

theorem openingBelow {as : List Node} {selfClosing : Bool} (element : el.kind = .element) (name : NameFormed true own)
    (inside : el ∈ (⟨.openingElement own (presentList as) selfClosing, span⟩ : Node).preorder) :
    ∃ n ∈ as, el ∈ n.preorder := by
  obtain ⟨n, child, below⟩ := otherBelow element inside rfl
  rw [childrenOpening] at child
  rcases List.mem_cons.mp child with rfl | member
  · exact (nameBelow element name below).elim
  · exact ⟨n, member, below⟩

end Below

def Phrase.Trips (x : Setting) (bad : ParseError → Prop) (m : Mode) (d : Nat) (c : Cursor) (b : Nat) : Phrase → Prop
  | .primary _ => c.rest.length ≤ b → Fails x (Grammar.primary (within b)) bad m d c
  | .suffixes _ _ => c.rest.length ≤ b → ∀ object : Node, object.span.start ≤ c.position →
      GrowFails x (suffix (within b)) object bad m d c
  | .chain _ => c.rest.length ≤ b → Fails x (callOrMember (within b)) bad m d c
  | .unary _ => c.rest.length ≤ b → Fails x (Grammar.unary (within b)) bad m d c
  | .operands level tighter _ _ => c.rest.length ≤ b →
      ManyFails x (separatedItem (operandWithEnd (Grammar.ladder (within b) tighter)) level.operators) bad m d c
  | .ladder levels _ => c.rest.length ≤ b → Fails x (Grammar.ladder (within b) levels) bad m d c
  | .moreArguments _ => c.rest.length ≤ b → ManyFails x (separatedItem (within b .expression) [","]) bad m d c
  | .arguments _ => c.rest.length < b → Fails x (separatedList (within b .expression) [","]) bad m d c
  | .fragment _ => c.rest.length ≤ b → Fails x (Grammar.fragment (within b)) bad m d c
  | .element _ => (∃ c₁ k c₂, c.Takes m "<" c₁ ∧ c₁.next? m = some (k, c₂) ∧ ∀ o, k ≠ .punctuator o) ∧
      (c.rest.length ≤ b → Fails x (Grammar.element (within b)) bad m d c)
  | .attributeValue _ => c.rest.length < b → Fails x (Grammar.attributeValue (within b)) bad m d c
  | .attribute _ => c.rest.length < b → Fails x (attribute? (within b)) bad m d c
  | .attributes _ => c.rest.length < b → ManyFails x (attribute? (within b)) bad m d c
  | .child _ => c.rest.length < b → Fails x (Grammar.child (within b)) bad m d c
  | .children _ => c.rest.length < b → ManyFails x (Grammar.child (within b)) bad m d c

def Phrase.Holds (el : Node) : Phrase → Prop
  | .suffixes object n | .operands _ _ object n => el ∈ n.preorder ∧ el ∉ object.preorder
  | .primary n | .chain n | .unary n | .ladder _ n | .fragment n | .element n | .attributeValue n | .attribute n
  | .child n => el ∈ n.preorder
  | .moreArguments ns | .arguments ns | .attributes ns | .children ns => ∃ n ∈ ns, el ∈ n.preorder

def Phrase.Leads (cut : Cut) (m : Mode) (c : Cursor) : Phrase → Prop
  | .child _ | .children _ => c.Before cut
  | _ => c.Ahead cut m

/-- The cut is further on, and in the edited text the phrase fails. -/
structure Doomed (cut : Cut) (edited : String) (x : Setting) (bad : ParseError → Prop) (m : Mode) (d : Nat) (c : Cursor)
    (ph : Phrase) : Prop where
  leads : ph.Leads cut m c
  trips : ∀ {b}, (cut.beside edited).rel c b → ∀ budget, ph.Trips x bad m d b budget

structure Caught (cut : Cut) (edited : String) (x : Setting) (bad : ParseError → Prop) (own : Node) (c : Cursor) :
    Prop where
  before : c.Before cut
  closes : ∀ b, (cut.beside edited).rel c b → ∃ b₁ b₂, b.Takes .jsx "<" b₁ ∧ b₁.Takes .jsx "/" b₂
  fails : ∀ {own' b} d, own'.Alike own → (cut.beside edited).rel c b → Fails x (closingTag own') bad .jsx d b

section Opened

variable {bad : ParseError → Prop} {ph' : Phrase} {m' : Mode} {d' : Nat}

theorem Phrase.Leads.before (h : ph.Leads cut m c) : c.Before cut := by
  cases ph with
  | child | children => exact h
  | _ => exact Cursor.Ahead.before h

theorem Phrase.leadsAhead (h : c.Ahead cut m) : ph.Leads cut m c := by
  cases ph with
  | child | children => exact h.before
  | _ => exact h

theorem opensDoomed (opens : c.Takes m o c₁) (h : Doomed cut edited x bad m' d' c₁ ph)
    (rule : ∀ {b b₁}, b.Takes m o b₁ → (∀ budget, ph.Trips x bad m' d' b₁ budget) → ∀ budget, ph'.Trips x bad m d b budget) :
    Doomed cut edited x bad m d c ph' := by
  have later := h.leads.before
  refine ⟨Phrase.leadsAhead (aheadTakes opens later), fun related budget => ?_⟩
  obtain ⟨b₁, opens', related₁⟩ := Passage.takes related opens later
  exact rule opens' (h.trips related₁) budget

end Opened

section Markup

variable {bad : ParseError → Prop} {as ns : List Node} {c₂ c₃ c₄ c₅ : Cursor} {a : Cursor}

theorem elementMarkupFails {budget : Nat} (room : b.rest.length < budget)
    (trips : ∀ budget, (Phrase.element n).Trips x bad m d b budget) : Fails x (markup (within budget)) bad m d b := by
  obtain ⟨⟨b₁, k, b₂, less, next, other⟩, -⟩ := trips budget
  exact (innerPasses room fun _ => passesFragment less next (other ">")).fails
    (innerFails (k := .element) room fun budget => (trips budget).2)

theorem tagBeside (less : c.Takes m "<" a) (opens : c.Takes .jsx "<" c₁) (name : ReadsName x.file true own c₁ c₂)
    (related : (cut.beside edited).rel c b) (ahead : c₂.Ahead cut .jsx) :
    ∃ b₁ own' b₂, (cut.beside edited).rel c₂ b₂ ∧ own'.Alike own ∧ b.Takes m "<" b₁ ∧ b.Takes .jsx "<" b₁ ∧
      ReadsName x.file true own' b₁ b₂ := by
  have later := name.advances.reaches.before ahead.before
  obtain ⟨b₁, less', opens', related₁⟩ := carriedBoth related less opens later
  obtain ⟨own', b₂, related₂, alike, name'⟩ := name.beside related₁ ahead
  exact ⟨b₁, own', b₂, related₂, alike, less', opens', name'⟩

theorem openedBeside (less : c.Takes m "<" a) (opens : c.Takes .jsx "<" c₁) (name : ReadsName x.file true own c₁ c₂)
    (attributes : Reads x (.attributes as) .jsx d c₂ c₃) (opened : c₃.Takes .jsx ">" c₄)
    (related : (cut.beside edited).rel c b) (later : c₄.Before cut) :
    ∃ b₁ own' b₂ as' b₃ b₄, (cut.beside edited).rel c₄ b₄ ∧ own'.Alike own ∧ b.Takes m "<" b₁ ∧ b.Takes .jsx "<" b₁ ∧
      ReadsName x.file true own' b₁ b₂ ∧ Reads x (.attributes as') .jsx d b₂ b₃ ∧ b₃.Takes .jsx ">" b₄ := by
  have ahead := aheadTakes opened later
  obtain ⟨b₁, own', b₂, related₂, alike, less', opens', name'⟩ :=
    tagBeside less opens name related (attributes.ahead trivial ahead)
  obtain ⟨as', b₃, related₃, -, attributes'⟩ := attributes.beside related₂ ahead.before ahead.sees
  obtain ⟨b₄, opened', related₄⟩ := Passage.takes related₃ opened later
  exact ⟨b₁, own', b₂, as', b₃, b₄, related₄, alike, less', opens', name', attributes', opened'⟩

theorem elementTrips {budget : Nat} (less : b.Takes m "<" c₁) (room : d < x.config.maxDepth)
    (name : ReadsName x.file true own c₁ c₂)
    (h : b.rest.length ≤ budget → Fails x (elementBody (within budget)) bad .jsx (d + 1) b) :
    (Phrase.element n).Trips x bad m d b budget := by
  obtain ⟨k, c₃, next, other⟩ := nameKind name m
  exact ⟨⟨_, k, c₃, less, next, other⟩, fun enough => elementFails less next (other "/") room (h enough)⟩

theorem attributesDoomed (less : c.Takes m "<" a) (room : d < x.config.maxDepth) (opens : c.Takes .jsx "<" c₁)
    (name : ReadsName x.file true own c₁ c₂) (h : Doomed cut edited x bad .jsx (d + 1) c₂ (.attributes as)) :
    Doomed cut edited x bad m d c (.element n) := by
  obtain ⟨leads, trips⟩ := h
  obtain rfl := takesAlike less opens
  refine ⟨aheadTakes less (name.ahead leads).before, fun related budget => ?_⟩
  obtain ⟨b₁, own', b₂, related₂, -, less', opens', name'⟩ := tagBeside less opens name related leads
  have shorter := ((nextAdvances opens').then name'.advances.reaches).shorter
  exact elementTrips less' room name' fun enough => attributesFail opens' name' (trips related₂ budget (by omega))

theorem childrenDoomed (less : c.Takes m "<" a) (room : d < x.config.maxDepth) (opens : c.Takes .jsx "<" c₁)
    (name : ReadsName x.file true own c₁ c₂) (attributes : Reads x (.attributes as) .jsx (d + 1) c₂ c₃)
    (opened : c₃.Takes .jsx ">" c₄) (h : Doomed cut edited x bad .jsx (d + 1) c₄ (.children ns)) :
    Doomed cut edited x bad m d c (.element n) := by
  obtain ⟨leads, trips⟩ := h
  have ahead := attributes.ahead trivial (aheadTakes opened leads)
  obtain rfl := takesAlike less opens
  refine ⟨aheadTakes less (name.ahead ahead).before, fun related budget => ?_⟩
  obtain ⟨b₁, own', b₂, as', b₃, b₄, related₄, -, less', opens', name', attributes', opened'⟩ :=
    openedBeside less opens name attributes opened related leads
  have second := (nextAdvances opens').then name'.advances.reaches
  have shorter := second.shorter
  have shorter' := (second.then (Reaches.trans (Reads.goes attributes') (nextReaches opened'))).shorter
  exact elementTrips less' room name' fun enough => tailFails opens' name' (attributes'.runs budget (by omega)) opened'
    (childrenFail (trips related₄ budget (by omega)))

theorem closingDoomed (less : c.Takes m "<" a) (room : d < x.config.maxDepth) (opens : c.Takes .jsx "<" c₁)
    (name : ReadsName x.file true own c₁ c₂) (attributes : Reads x (.attributes as) .jsx (d + 1) c₂ c₃)
    (opened : c₃.Takes .jsx ">" c₄) (inside : Reads x (.children ns) .jsx (d + 1) c₄ c₅)
    (caught : Caught cut edited x bad own c₅) : Doomed cut edited x bad m d c (.element n) := by
  have leads := (Reads.goes inside).before caught.before
  have ahead := attributes.ahead trivial (aheadTakes opened leads)
  obtain rfl := takesAlike less opens
  refine ⟨aheadTakes less (name.ahead ahead).before, fun related budget => ?_⟩
  obtain ⟨b₁, own', b₂, as', b₃, b₄, related₄, alike, less', opens', name', attributes', opened'⟩ :=
    openedBeside less opens name attributes opened related leads
  obtain ⟨ns', b₅, related₅, -, inside'⟩ := inside.beside related₄ caught.before caught.closes
  have second := (nextAdvances opens').then name'.advances.reaches
  have shorter := second.shorter
  have shorter' := (second.then (Reaches.trans (Reads.goes attributes') (nextReaches opened'))).shorter
  exact elementTrips less' room name' fun enough => tailFails opens' name' (attributes'.runs budget (by omega)) opened'
    (closingFails (inside'.runs budget (by omega)) (caught.fails (d + 1) alike related₅))

end Markup

section Expressions

variable {bad : ParseError → Prop} {object property left right : Node} {ns : List Node} {level : Level}
  {tighter : List Level} {name : String} {c₂ c₃ : Cursor}

theorem chainDoomed (first : Reads x (.primary object) m d c c₁)
    (h : Doomed cut edited x bad m d c₁ (.suffixes object n)) : Doomed cut edited x bad m d c (.chain n) := by
  obtain ⟨leads, trips⟩ := h
  refine ⟨first.ahead trivial leads, fun related budget enough => ?_⟩
  obtain ⟨o, b₁, related₁, -, first'⟩ := first.beside related leads.before trivial
  have shorter := first'.goes.shorter
  exact chainFailsAfter (first'.runs budget enough) (trips related₁ budget (by omega) o (Laid.ordered first'.laid))

theorem memberDoomed (dot : c.Takes m "." c₁) (own : c₁.next? m = some (.identifier name, c₂))
    (h : Doomed cut edited x bad m d c₂ (.suffixes ⟨.member object ⟨.identifier name, c₁.spanTo c₂ x.file⟩ false,
      object.spanUpTo c₂ x.file⟩ n)) : Doomed cut edited x bad m d c (.suffixes object n) := by
  obtain ⟨leads, trips⟩ := h
  have later := (nextReaches own).before leads.before
  refine ⟨aheadTakes dot later, fun related budget enough o ordered => ?_⟩
  obtain ⟨b₁, dot', related₁⟩ := Passage.takes related dot later
  obtain ⟨b₂, own', related₂⟩ := (cut.beside edited).token related₁ own rfl leads.before
  have advances := (nextAdvances dot').then (nextReaches own')
  have shorter := advances.shorter
  exact growFailsAfter advances (yieldsMember dot' own' ordered)
    (trips related₂ budget (by omega) _ (Position.leTrans ordered advances.reaches.position))

theorem computedDoomed (opens : c.Takes m "[" c₁) (room : d < x.config.maxDepth)
    (inside : Reads x (.expression property) m (d + 1) c₁ c₂) (closes : c₂.Takes m "]" c₃)
    (h : Doomed cut edited x bad m d c₃ (.suffixes ⟨.member object property true, object.spanUpTo c₃ x.file⟩ n)) :
    Doomed cut edited x bad m d c (.suffixes object n) := by
  obtain ⟨leads, trips⟩ := h
  have closing := (nextReaches closes).before leads.before
  have later := inside.goes.reaches.before closing
  refine ⟨aheadTakes opens later, fun related budget enough o ordered => ?_⟩
  obtain ⟨b₁, z, b₂, b₃, related₃, -, opens', inside', closes'⟩ :=
    enclosedAnew opens closes related later leads.before fun front sees => inside.beside front closing sees
  have first := nextAdvances opens'
  have advances := first.then (inside'.goes.reaches.trans (nextReaches closes'))
  have shorter := first.shorter
  have shorter' := advances.shorter
  exact growFailsAfter advances
    (yieldsComputed opens' room (innerYields (by omega) inside'.runs) inside'.goes.reaches closes' ordered)
    (trips related₃ budget (by omega) _ (Position.leTrans ordered advances.reaches.position))

theorem callDoomed (opens : c.Takes m "(" c₁) (room : d < x.config.maxDepth)
    (inside : Reads x (.arguments ns) m (d + 1) c₁ c₂) (closes : c₂.Takes m ")" c₃)
    (h : Doomed cut edited x bad m d c₃ (.suffixes ⟨.call object ns, object.spanUpTo c₃ x.file⟩ n)) :
    Doomed cut edited x bad m d c (.suffixes object n) := by
  obtain ⟨leads, trips⟩ := h
  have closing := (nextReaches closes).before leads.before
  have later := inside.goes.before closing
  refine ⟨aheadTakes opens later, fun related budget enough o ordered => ?_⟩
  obtain ⟨b₁, zs, b₂, b₃, related₃, -, opens', inside', closes'⟩ :=
    argumentsAnew opens closes related later leads.before fun front sees => inside.beside front closing sees
  have first := nextAdvances opens'
  have advances := first.then (inside'.goes.trans (nextReaches closes'))
  have shorter := first.shorter
  have shorter' := advances.shorter
  exact growFailsAfter advances (yieldsCall opens' room (inside'.runs budget (by omega)) inside'.goes closes' ordered)
    (trips related₃ budget (by omega) _ (Position.leTrans ordered advances.reaches.position))

theorem levelDoomed (first : Reads x (.ladder tighter left) m d c c₁)
    (h : Doomed cut edited x bad m d c₁ (.operands level tighter left n)) :
    Doomed cut edited x bad m d c (.ladder (level :: tighter) n) := by
  obtain ⟨leads, trips⟩ := h
  refine ⟨first.ahead trivial leads, fun related budget enough => ?_⟩
  obtain ⟨l, b₁, related₁, -, first'⟩ := first.beside related leads.before leads.sees
  have shorter := first'.goes.shorter
  exact foldFailsAfter (first'.runs budget enough) (trips related₁ budget (by omega))

theorem operandsDoomed (operator : c.Takes m o c₁) (known : o ∈ level.operators)
    (operand : Reads x (.ladder tighter right) m d c₁ c₂)
    (h : Doomed cut edited x bad m d c₂ (.operands level tighter ⟨level.join.form o left right,
      left.spanUpTo c₂ x.file⟩ n)) : Doomed cut edited x bad m d c (.operands level tighter left n) := by
  obtain ⟨leads, trips⟩ := h
  have later := operand.goes.reaches.before leads.before
  refine ⟨aheadTakes operator later, fun related budget enough => ?_⟩
  obtain ⟨b₁, operator', related₁⟩ := Passage.takes related operator later
  obtain ⟨r, b₂, related₂, -, operand'⟩ := operand.beside related₁ leads.before leads.sees
  have first := nextAdvances operator'
  have advances := first.then operand'.goes.reaches
  have shorter := first.shorter
  have shorter' := advances.shorter
  exact operandsFailAfter operator' known advances (operand'.runs budget (by omega)) (trips related₂ budget (by omega))

theorem moreArgumentsDoomed (comma : c.Takes m "," c₁) (item : Reads x (.expression n) m d c₁ c₂)
    (h : Doomed cut edited x bad m d c₂ (.moreArguments ns)) :
    Doomed cut edited x bad m d c (.moreArguments (n :: ns)) := by
  obtain ⟨leads, trips⟩ := h
  have later := item.goes.reaches.before leads.before
  refine ⟨aheadTakes comma later, fun related budget enough => ?_⟩
  obtain ⟨b₁, comma', related₁⟩ := Passage.takes related comma later
  obtain ⟨z, b₂, related₂, -, item'⟩ := item.beside related₁ leads.before leads.sees
  have first := nextAdvances comma'
  have advances := first.then item'.goes.reaches
  have shorter := first.shorter
  have shorter' := advances.shorter
  exact argumentsFailAfter comma' advances (innerYields (by omega) item'.runs) (trips related₂ budget (by omega))

end Expressions

section Doom

variable {bad : ParseError → Prop} {opening : Node} {as : List Node} {span : Span} {closing : Option Node}
  {inside : Option (List Node)}

theorem Reads.doomed (h : Reads x ph m d c c') (within : c.Within source)
    (element : el.form = .element ⟨.openingElement own (presentList as) false, span⟩ closing inside)
    (caught : ∀ {c₅ c₆ close}, closing = some ⟨.closingElement close, c₅.spanTo c₆ x.file⟩ → c₅.Within source →
      c₅.text? = none → Caught cut edited x bad own c₅) (holds : ph.Holds el) :
    Doomed cut edited x bad m d c ph := by
  have kind : el.kind = .element := by rw [Node.kind, element]; rfl
  -- Of two parts the first holds the element and fails, or it is read as before and the second fails behind it.
  induction h with
  | identifier | literal => exact (leafBelow kind holds rfl rfl).elim
  | parenthesized opens room inside closes ih =>
      refine opensDoomed opens (ih ((nextReaches opens).within within) holds) fun opens' trips budget enough => ?_
      have shorter := (nextAdvances opens').shorter
      exact parenthesizedFails opens' room (innerFails (by omega) trips)
  | fragmentPrimary allowed markup ih =>
      obtain ⟨leads, trips⟩ := ih within holds
      obtain ⟨c₁, less, -⟩ := markup.begins
      refine ⟨leads, fun related budget enough => ?_⟩
      obtain ⟨b₁, less', -⟩ := Passage.takes related less (leads.takes less)
      exact fragmentPrimaryFails less' allowed (trips related budget enough)
  | elementPrimary allowed markup ih =>
      obtain ⟨leads, trips⟩ := ih within holds
      refine ⟨leads, fun related budget enough => ?_⟩
      obtain ⟨⟨b₁, k, b₂, less, next, other⟩, fails⟩ := trips related budget
      exact elementPrimaryFails less allowed (passesFragment less next (other ">")) (fails enough)
  | noSuffix | noOperand => exact absurd holds.1 holds.2
  | memberSuffix dot own _ ih =>
      have reaches := (nextReaches dot).trans (nextReaches own)
      refine memberDoomed dot own (ih (reaches.within within) ⟨holds.1, fun below => ?_⟩)
      exact (bothBelow kind below rfl rfl).elim holds.2 fun named => leafBelow kind named rfl rfl
  | @computedSuffix _ _ _ property _ _ _ _ _ _ opens room inside closes _ ih ihMore =>
      have within₁ := (nextReaches opens).within within
      by_cases deep : el ∈ property.preorder
      · refine opensDoomed opens (ih within₁ deep) fun opens' trips budget enough o ordered => ?_
        have shorter := (nextAdvances opens').shorter
        exact growFails (computedFails opens' room (innerFails (by omega) trips))
      · have reaches := inside.goes.reaches.trans (nextReaches closes)
        refine computedDoomed opens room inside closes (ihMore (reaches.within within₁) ⟨holds.1, fun below => ?_⟩)
        exact (bothBelow kind below rfl rfl).elim holds.2 deep
  | @callSuffix _ _ _ ns _ _ _ _ _ _ opens room inside closes _ ih ihMore =>
      have within₁ := (nextReaches opens).within within
      by_cases deep : ∃ n ∈ ns, el ∈ n.preorder
      · refine opensDoomed opens (ih within₁ deep) fun opens' trips budget enough o ordered => ?_
        have shorter := (nextAdvances opens').shorter
        exact growFails (callFails opens' room (trips budget (by omega)))
      · have reaches := inside.goes.trans (nextReaches closes)
        refine callDoomed opens room inside closes (ihMore (reaches.within within₁) ⟨holds.1, fun below => ?_⟩)
        exact (callBelow kind below).elim holds.2 deep
  | @chain _ _ object _ _ _ _ first _ ih ihMore =>
      by_cases deep : el ∈ object.preorder
      · obtain ⟨leads, trips⟩ := ih within deep
        exact ⟨leads, fun related budget enough => chainFails (trips related budget enough)⟩
      · exact chainDoomed first (ihMore (first.goes.reaches.within within) ⟨holds, deep⟩)
  | plainUnary stop _ ih =>
      obtain ⟨leads, trips⟩ := ih within holds
      refine ⟨leads, fun related budget enough => ?_⟩
      exact plainUnaryFails (leads.sees.stops related stop) (trips related budget enough)
  | unary operator known room _ ih =>
      have doomed :=
        ih ((nextReaches operator).within within) (onlyBelow kind holds rfl rfl)
      refine opensDoomed operator doomed fun operator' trips budget enough => ?_
      have shorter := (nextAdvances operator').shorter
      exact unaryFails operator' known room (innerFails (by omega) trips)
  | @operand _ _ _ _ _ right _ _ _ _ _ _ operator known operand _ ih ihMore =>
      have within₁ := (nextReaches operator).within within
      by_cases deep : el ∈ right.preorder
      · refine opensDoomed operator (ih within₁ deep) fun operator' trips budget enough => ?_
        have shorter := (nextAdvances operator').shorter
        exact manyFails (operandFails operator' known (trips budget (by omega)))
      · refine operandsDoomed operator known operand
          (ihMore (operand.goes.reaches.within within₁) ⟨holds.1, fun below => ?_⟩)
        exact (joinBelow kind below).elim holds.2 deep
  | bottom _ ih =>
      obtain ⟨leads, trips⟩ := ih within holds
      exact ⟨leads, fun related budget enough => trips related budget enough⟩
  | @level _ _ _ _ left _ _ _ _ first _ ih ihMore =>
      by_cases deep : el ∈ left.preorder
      · obtain ⟨leads, trips⟩ := ih within deep
        exact ⟨leads, fun related budget enough => foldFails (trips related budget enough)⟩
      · exact levelDoomed first (ihMore (first.goes.reaches.within within) ⟨holds, deep⟩)
  | noMoreArguments | noArguments | noAttribute | noChild =>
      obtain ⟨n, member, -⟩ := holds
      cases member
  | moreArguments comma item _ ih ihMore =>
      have within₁ := (nextReaches comma).within within
      rcases (List.exists_mem_cons_iff _ _ _).mp holds with below | later
      · refine opensDoomed comma (ih within₁ below) fun comma' trips budget enough => ?_
        have shorter := (nextAdvances comma').shorter
        exact manyFails (itemFails comma' (List.mem_singleton_self ",") (innerFails (by omega) trips))
      · exact moreArgumentsDoomed comma item (ihMore (item.goes.reaches.within within₁) later)
  | arguments first _ ih ihMore =>
      rcases (List.exists_mem_cons_iff _ _ _).mp holds with below | later
      · obtain ⟨leads, trips⟩ := ih within below
        exact ⟨leads, fun related budget room => listFails (innerFails room (trips related))⟩
      · obtain ⟨leads, trips⟩ := ihMore (first.goes.reaches.within within) later
        refine ⟨first.ahead trivial leads, fun related budget room => ?_⟩
        obtain ⟨z, b₁, related₁, -, first'⟩ := first.beside related leads.before leads.sees
        have shorter := first'.goes.shorter
        exact listFailsAfter (innerYields room first'.runs) (trips related₁ budget (by omega))
  | @fragment m d ns c b b' c₁ c₂ c₃ c₄ c₅ c' less greater room opens opened inside closes slash closed ih =>
      obtain ⟨n, member, below⟩ := fragmentBelow kind holds
      have reaches := (nextReaches opens).trans (nextReaches opened)
      obtain ⟨leads, trips⟩ := ih (reaches.within within) ⟨n, member, below⟩
      have later := (nextReaches opened).before leads
      refine ⟨aheadTakes less ((takesAlike less opens) ▸ later), fun related budget enough => ?_⟩
      obtain ⟨b₁, less', opens', related₁⟩ := carriedBoth related less opens later
      obtain rfl := takesAlike less opens
      obtain ⟨b₂, greater', opened', related₂⟩ := carriedBoth related₁ greater opened leads
      have shorter := ((nextAdvances opens').then (nextReaches opened')).shorter
      exact fragmentFails less' greater' room opens' opened' (trips related₂ budget (by omega))
  | @selfClosing m d own' as' c b c₁ c₂ c₃ c₄ c' less notClosing room opens name attributes slash closed ih =>
      have reaches := (nextReaches opens).trans name.advances.reaches
      rcases tagBelow holds with rfl | below
      · simp at element
      · exact attributesDoomed less room opens name (ih (reaches.within within) (openingBelow kind name.formed below))
  | @element m d own' as' ns close c b c₁ c₂ c₃ c₄ c₅ c₆ c₇ c₈ c' less notClosing room opens name attributes opened
      inside closes slash closingName closed same ih ihInside =>
      have within₂ := ((nextReaches opens).trans name.advances.reaches).within within
      have within₄ := (Reaches.trans (Reads.goes attributes) (nextReaches opened)).within within₂
      rcases elementBelow holds with rfl | below | ⟨n, member, below⟩ | below
      · simp only [Form.element.injEq, Node.mk.injEq, Form.openingElement.injEq] at element
        obtain ⟨⟨⟨rfl, -⟩, -⟩, close, -⟩ := element
        exact closingDoomed less room opens name attributes opened inside
          (caught close.symm (Reads.goes inside |>.within within₄) (childrenTextless inside))
      · exact attributesDoomed less room opens name (ih within₂ (openingBelow kind name.formed below))
      · exact childrenDoomed less room opens name attributes opened (ihInside within₄ ⟨n, member, below⟩)
      · exact (nameBelow kind closingName.formed (onlyBelow kind below rfl rfl)).elim
  | stringValue | text => exact (leafBelow kind holds rfl rfl).elim
  | containerValue opens inside closes ih =>
      have doomed :=
        ih ((nextReaches opens).within within) (onlyBelow kind holds rfl rfl)
      refine opensDoomed opens doomed fun opens' trips budget room => ?_
      have shorter := (nextAdvances opens').shorter
      exact containerValueFails opens' (innerFails (by omega) trips)
  | fragmentValue markup ih =>
      obtain ⟨leads, trips⟩ := ih within holds
      obtain ⟨c₁, less, -⟩ := markup.begins
      refine ⟨leads, fun related budget room => ?_⟩
      obtain ⟨b₁, less', -⟩ := Passage.takes related less (leads.takes less)
      exact markupValueFails less' (markupFails (innerFails room (trips related)))
  | elementValue markup ih =>
      obtain ⟨leads, trips⟩ := ih within holds
      obtain ⟨c₁, less, -⟩ := markup.begins
      refine ⟨leads, fun related budget room => ?_⟩
      obtain ⟨b₁, less', -⟩ := Passage.takes related less (leads.takes less)
      exact markupValueFails less' (elementMarkupFails room (trips related))
  | spreadAttribute opens dots inside closes ih =>
      have reaches := (nextReaches opens).trans (nextReaches dots)
      obtain ⟨leads, trips⟩ := ih (reaches.within within) (onlyBelow kind holds rfl rfl)
      have later := (nextReaches dots).before leads.before
      refine ⟨aheadTakes opens later, fun related budget room => ?_⟩
      obtain ⟨b₁, opens', related₁⟩ := Passage.takes related opens later
      obtain ⟨b₂, dots', related₂⟩ := Passage.takes related₁ dots leads.before
      have shorter := ((nextAdvances opens').then (nextReaches dots')).shorter
      exact spreadAttributeFails opens' dots' (innerFails (by omega) (trips related₂))
  | plainAttribute name stop =>
      exact (nameBelow kind name.formed (onlyBelow kind holds rfl rfl)).elim
  | valuedAttribute name equals assigned ih =>
      rcases bothBelow kind holds rfl rfl with below | below
      · exact (nameBelow kind name.formed below).elim
      · obtain ⟨leads, trips⟩ := ih ((name.advances.reaches.trans (nextReaches equals)).within within) below
        have behind := aheadTakes equals leads.before
        refine ⟨name.ahead behind, fun related budget room => ?_⟩
        obtain ⟨z, b₁, related₁, -, name'⟩ := name.beside related behind
        obtain ⟨b₂, equals', related₂⟩ := Passage.takes related₁ equals leads.before
        have shorter := (name'.advances.then (nextReaches equals')).shorter
        exact valuedAttributeFails name' equals' (trips related₂ budget (by omega))
  | attributes first _ ih ihMore =>
      rcases (List.exists_mem_cons_iff _ _ _).mp holds with below | later
      · obtain ⟨leads, trips⟩ := ih within below
        exact ⟨leads, fun related budget room => manyFails (trips related budget room)⟩
      · obtain ⟨leads, trips⟩ := ihMore (first.goes.reaches.within within) later
        refine ⟨first.ahead trivial leads, fun related budget room => ?_⟩
        obtain ⟨z, b₁, related₁, -, first'⟩ := first.beside related leads.before leads.sees
        have advances : Advances _ b₁ := first'.goes
        have shorter := advances.shorter
        exact manyFailsAfter advances (first'.runs budget room) (trips related₁ budget (by omega))
  | fragmentChild textless markup ih =>
      obtain ⟨leads, trips⟩ := ih within holds
      refine ⟨leads.before, fun related budget room => ?_⟩
      exact markupChildFails ((cut.beside edited).bare related textless trivial)
        (markupFails (innerFails room (trips related)))
  | elementChild textless markup ih =>
      obtain ⟨leads, trips⟩ := ih within holds
      refine ⟨leads.before, fun related budget room => ?_⟩
      exact markupChildFails ((cut.beside edited).bare related textless trivial)
        (elementMarkupFails room (trips related))
  | emptyChild =>
      exact (leafBelow kind (onlyBelow kind holds rfl rfl) rfl rfl).elim
  | containerChild textless opens inside closes ih =>
      obtain ⟨leads, trips⟩ :=
        ih ((nextReaches opens).within within) (onlyBelow kind holds rfl rfl)
      refine ⟨(nextReaches opens).before leads.before, fun related budget room => ?_⟩
      obtain ⟨b₁, opens', related₁⟩ := Passage.takes related opens leads.before
      have shorter := (nextAdvances opens').shorter
      refine bracedChildFails ((cut.beside edited).bare related textless trivial) opens'
        (passesMarkup (silentPasses room opens' rfl) (silentPasses room opens' rfl)) fun brace => ?_
      exact containerFails brace (leads.sees.stops related₁ (expressionUndotted inside))
        (innerFails (by omega) (trips related₁))
  | spreadChild textless opens dots inside closes ih =>
      have reaches := (nextReaches opens).trans (nextReaches dots)
      obtain ⟨leads, trips⟩ := ih (reaches.within within) (onlyBelow kind holds rfl rfl)
      have later := (nextReaches dots).before leads.before
      refine ⟨(nextReaches opens).before later, fun related budget room => ?_⟩
      obtain ⟨b₁, opens', related₁⟩ := Passage.takes related opens later
      obtain ⟨b₂, dots', related₂⟩ := Passage.takes related₁ dots leads.before
      have shorter := ((nextAdvances opens').then (nextReaches dots')).shorter
      refine bracedChildFails ((cut.beside edited).bare related textless trivial) opens'
        (passesMarkup (silentPasses room opens' rfl) (silentPasses room opens' rfl)) fun brace => ?_
      exact spreadChildFails brace dots' (innerFails (by omega) (trips related₂))
  | children first _ ih ihMore =>
      rcases (List.exists_mem_cons_iff _ _ _).mp holds with below | later
      · obtain ⟨leads, trips⟩ := ih within below
        exact ⟨leads, fun related budget room => manyFails (trips related budget room)⟩
      · obtain ⟨leads, trips⟩ := ihMore (first.goes.reaches.within within) later
        refine ⟨first.goes.reaches.before leads, fun related budget room => ?_⟩
        obtain ⟨z, b₁, related₁, -, first'⟩ := first.beside related leads trivial
        have advances : Advances _ b₁ := first'.goes
        have shorter := advances.shorter
        exact manyFailsAfter advances (first'.runs budget room) (trips related₁ budget (by omega))

end Doom

end Grammar

end JsxTree
