import StylesheetImports.Text.Numeral
import StylesheetImports.Text.Pieces

set_option autoImplicit false

namespace StylesheetImports

def words (text : String) : List (List Char) :=
  (pieces Char.isWhitespace text.toList).filter (· ≠ [])

structure CodeRange where
  first : Nat
  last : Nat
  deriving DecidableEq

namespace CodeRange

def contains (range : CodeRange) (c : Char) : Bool :=
  range.first <= c.toNat && c.toNat <= range.last

def number (digits : List Char) : Nat :=
  (numberIn? 16 digits).getD 0

def ofWord (word : List Char) : CodeRange :=
  let ends := pieces (· = '-') word
  { first := number (ends.headD []), last := number (ends.getLastD []) }

def readAll (text : String) : List CodeRange :=
  (words text).map ofWord

def readTable (text : String) : List (CodeRange × Nat) :=
  (words text).map fun word =>
    (ofWord (word.takeWhile (· ≠ '=')), number ((word.dropWhile (· ≠ '=')).drop 1))

end CodeRange

end StylesheetImports
