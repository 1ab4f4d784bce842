/-! Paths: texts of parts between slashes. Two texts name the same parts if they differ in empty
parts or in single dots, and paths are ordered by their parts. -/
namespace JsxTree

structure Path where
  text : List Char
  deriving DecidableEq, Repr

namespace Path

def ofString (s : String) : Path := ⟨s.toList⟩

def toString (p : Path) : String := String.ofList p.text

def isAbsolute (p : Path) : Bool := p.text.head? == some '/'

def pieces (p : Path) : List (List Char) := p.text.splitOn '/'

def stays (piece : List Char) : Bool := piece == [] || piece == ['.']

inductive Part where
  | root
  | current
  | parent
  | name (text : List Char)
  deriving DecidableEq, Repr

def Part.ofPiece (piece : List Char) : Part := if piece = ['.', '.'] then .parent else .name piece

def parts (p : Path) : List Part :=
  let front := if p.isAbsolute then [.root] else if p.pieces.head? = some ['.'] then [.current] else []
  front ++ (p.pieces.filter (!stays ·)).map Part.ofPiece

/-- The root comes before all else, names come last and are ordered by code points. The zero at
the end puts a name before those that begin with it. -/
def Part.key : Part → List Nat
  | root => [0]
  | current => [1]
  | parent => [2]
  | name text => 3 :: text.map (·.toNat + 1) ++ [0]

def key (p : Path) : List Nat := p.parts.flatMap Part.key

def keyAtMost : List Nat → List Nat → Bool
  | [], _ => true
  | _ :: _, [] => false
  | m :: ms, n :: ns => m < n || (m == n && keyAtMost ms ns)

def atMost (p q : Path) : Bool := keyAtMost p.key q.key

theorem keyAtMostTotal (ms ns : List Nat) : keyAtMost ms ns = true ∨ keyAtMost ns ms = true := by
  fun_induction keyAtMost ms ns with
  | case1 => exact .inl rfl
  | case2 => exact .inr rfl
  | case3 m ms n ns ih =>
      simp only [keyAtMost, Bool.or_eq_true, decide_eq_true_eq, Bool.and_eq_true, beq_iff_eq]
      rcases Nat.lt_trichotomy m n with less | rfl | more
      · exact .inl (.inl less)
      · exact ih.imp (fun h => .inr ⟨rfl, h⟩) (fun h => .inr ⟨rfl, h⟩)
      · exact .inr (.inl more)

theorem keyAtMostTrans {ls ms ns : List Nat} (first : keyAtMost ls ms = true)
    (second : keyAtMost ms ns = true) : keyAtMost ls ns = true := by
  fun_induction keyAtMost ls ms generalizing ns with
  | case1 => rfl
  | case2 => cases first
  | case3 l ls m ms ih =>
      cases ns with
      | nil => cases second
      | cons n ns =>
          simp only [keyAtMost, Bool.or_eq_true, decide_eq_true_eq, Bool.and_eq_true, beq_iff_eq] at *
          rcases first with less | ⟨rfl, first⟩ <;> rcases second with less' | ⟨rfl, second⟩
          · exact .inl (Nat.lt_trans less less')
          · exact .inl less
          · exact .inl less'
          · exact .inr ⟨rfl, ih first second⟩

theorem keyAtMostAntisymm {ms ns : List Nat} (first : keyAtMost ms ns = true)
    (second : keyAtMost ns ms = true) : ms = ns := by
  fun_induction keyAtMost ms ns with
  | case1 ns => cases ns with
      | nil => rfl
      | cons n ns => cases second
  | case2 => cases first
  | case3 m ms n ns ih =>
      simp only [keyAtMost, Bool.or_eq_true, decide_eq_true_eq, Bool.and_eq_true, beq_iff_eq] at *
      rcases first with less | ⟨rfl, first⟩
      · rcases second with more | ⟨rfl, _⟩ <;> omega
      · rw [ih first (second.elim (fun h => absurd h (Nat.lt_irrefl m)) And.right)]

def entry (p : Path) (name : List Char) : Path :=
  if p.text = [] ∨ p.text.getLast? = some '/' then ⟨p.text ++ name⟩ else ⟨p.text ++ '/' :: name⟩

def extensionOf (name : List Char) : Option (List Char) :=
  match name.reverse.span (· != '.') with
  | (_, []) | (_, [_]) => none
  | (ending, _) => some ending.reverse

def extension? (p : Path) : Option (List Char) :=
  match p.parts.getLast? with
  | some (.name text) => extensionOf text
  | _ => none

def piecesBelow : List (List Char) → List (List Char) → Option (List (List Char))
  | [], pieces => some pieces
  | _ :: _, [] => none
  | name :: names, piece :: pieces =>
      if stays piece then piecesBelow (name :: names) pieces
      else if piece = name then piecesBelow names pieces
      else none

def trimmed (pieces : List (List Char)) : List (List Char) :=
  ((pieces.dropWhile stays).reverse.dropWhile stays).reverse

/-- A path below the directory, taken from there; any other path as it is. -/
def relativeTo (p directory : Path) : Path :=
  if p.isAbsolute && directory.isAbsolute then
    match piecesBelow (directory.pieces.filter (!stays ·)) p.pieces with
    | some pieces => ⟨List.intercalate ['/'] (trimmed pieces)⟩
    | none => p
  else p

end Path

end JsxTree
