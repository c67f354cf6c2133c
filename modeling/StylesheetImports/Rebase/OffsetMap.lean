import StylesheetImports.Text.Offset

set_option autoImplicit false

namespace StylesheetImports

namespace Span

def length (s : Span) : Nat :=
  s.stop - s.start

end Span

structure Replacement where
  replaced : Span
  generated : Span
  deriving DecidableEq

/-- The replacements in the order in which they were made, and by how much the new text is longer. -/
structure OffsetMap where
  replacements : List Replacement
  growth : Int
  deriving DecidableEq

namespace Offset

-- Two to the power of 64.
def modulus : Nat := 18446744073709551616

def wrap (n : Int) : Int :=
  n.bmod modulus

-- The position `offset` moved by `delta`, never before the start of the text.
def shift (offset : Nat) (delta : Int) : Nat :=
  (wrap (offset + delta)).toNat

-- In texts that memory can hold, positions move without loss.
theorem shift_eq {offset : Nat} {delta : Int} (nonneg : 0 <= offset + delta)
    (small : offset + delta < 9223372036854775808) : (shift offset delta : Int) = offset + delta := by
  unfold shift wrap modulus
  rw [Int.bmod_eq_of_le (by omega) (by omega)]
  omega

end Offset

namespace Replacement

def growth (r : Replacement) : Int :=
  Offset.wrap (r.generated.length - r.replaced.length)

end Replacement

namespace OffsetMap

def empty : OffsetMap := { replacements := [], growth := 0 }

def push (map : OffsetMap) (replaced : Span) (size : Nat) : OffsetMap :=
  let start := Offset.shift replaced.start map.growth
  { replacements :=
      map.replacements ++ [{ replaced, generated := { start, stop := (start + size) % Offset.modulus } }]
    growth := Offset.wrap (map.growth + (size - replaced.length)) }

def length (map : OffsetMap) : Nat :=
  map.replacements.length

/-- The position before the replacements of `generated`, when earlier replacements added `growth`. A
position inside a replacement goes back to the start of what it replaces. -/
def sourceFrom (growth : Int) (generated : Nat) : List Replacement -> Nat
  | [] => Offset.shift generated (-growth)
  | r :: rest =>
    if generated < r.generated.start then Offset.shift generated (-growth)
    else if generated < r.generated.stop then r.replaced.start
    else sourceFrom (Offset.wrap (growth + r.growth)) generated rest

def sourceOffset (map : OffsetMap) (generated : Nat) : Nat :=
  sourceFrom 0 generated map.replacements

end OffsetMap

end StylesheetImports
