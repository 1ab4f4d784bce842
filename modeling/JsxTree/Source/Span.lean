import JsxTree.Source.Position
import JsxTree.Text.Bytes

/-! Stretches of source text, from the position of the first character to the position after the
last one, and their compact form of two 32-bit offsets. -/
namespace JsxTree

structure ByteSpan where
  start : UInt32
  stop : UInt32
  deriving DecidableEq, Repr

namespace ByteSpan

def length? (s : ByteSpan) : Option UInt32 := if s.start ≤ s.stop then some (s.stop - s.start) else none

def isEmpty (s : ByteSpan) : Bool := s.start == s.stop

def slice (s : ByteSpan) (source : String) : Option String :=
  (Text.slice s.start.toNat s.stop.toNat source.toList).map String.ofList

end ByteSpan

structure Span where
  start : Position
  stop : Position
  file : Option String
  deriving DecidableEq, Repr, Inhabited

namespace Span

def emptyAt (p : Position) : Span := ⟨p, p, none⟩

def contains (s other : Span) : Bool := s.start ≤ other.start ∧ other.stop ≤ s.stop

def bytes (s : Span) : ByteSpan := ⟨s.start.offset.toUInt32, s.stop.offset.toUInt32⟩

end Span

end JsxTree
