import StylesheetImports.Text.Utf8

set_option autoImplicit false

namespace StylesheetImports

structure Span where
  start : Nat
  stop : Nat
  deriving DecidableEq

namespace Utf8

def size : List Char -> Nat
  | [] => 0
  | c :: text => c.utf8Size + size text

@[simp] theorem size_nil : size [] = 0 := rfl

@[simp] theorem size_cons (c : Char) (text : List Char) : size (c :: text) = c.utf8Size + size text :=
  rfl

@[simp] theorem size_append (a b : List Char) : size (a ++ b) = size a + size b := by
  induction a with
  | nil => simp
  | cons c a ih => simp [ih, Nat.add_assoc]

def splitAt? (offset : Nat) : List Char -> Option (List Char × List Char)
  | [] => if offset = 0 then some ([], []) else none
  | c :: text =>
    if offset = 0 then some ([], c :: text)
    else if offset < c.utf8Size then none
    else (splitAt? (offset - c.utf8Size) text).map (fun (before, after) => (c :: before, after))

def slice? (span : Span) (text : List Char) : Option (List Char) :=
  if span.start <= span.stop then
    (splitAt? span.start text).bind fun (_, rest) =>
      (splitAt? (span.stop - span.start) rest).map (·.1)
  else none

-- The characters that begin in a span of a text whose first byte has the offset `at_`.
def sliceFrom (span : Span) (at_ : Nat) : List Char -> List Char
  | [] => []
  | c :: text =>
    let rest := sliceFrom span (at_ + c.utf8Size) text
    if span.start <= at_ && at_ < span.stop then c :: rest else rest

def slice (span : Span) (text : List Char) : List Char :=
  sliceFrom span 0 text

end Utf8

end StylesheetImports
