import StylesheetImports.Domain.Direction
import StylesheetImports.Domain.Folding
import StylesheetImports.Domain.Joining
import StylesheetImports.Domain.Punycode

set_option autoImplicit false

namespace StylesheetImports

namespace Domain

def isAscii (label : List Char) : Bool :=
  label.all (·.toNat < 0x80)

def codeMark : List Char := "xn--".toList

def isForbidden (c : Char) : Bool :=
  c.toNat <= 0x20 || c.toNat = 0x7F || "%#/:<>?@[\\]^|".toList.contains c

def codeLimit : Nat := 2000

def labelLimit : Nat := 1000

def decoded? (code : List Char) : Option (List Char) := do
  if isAscii code && code.getLast?.any (· ≠ '-') && code.length <= codeLimit then
    let label ← Punycode.decode? code
    if folded? label = some label then some label else none
  else none

def plainLabel? (label : List Char) : Option (List Char) :=
  if label.take 4 = codeMark then decoded? (label.drop 4) else some label

def isLabel (label : List Char) : Bool :=
  !label.any isForbidden &&
    (isAscii label || (!label.head?.any isMark && joinersFit [] label && label.length <= labelLimit))

def asciiLabel (label : List Char) : List Char :=
  if isAscii label then label else codeMark ++ Punycode.encode label

def toAscii? (name : List Char) : Option (List Char) := do
  let folded ← folded? name
  let labels := pieces (· = '.') folded
  let plain ← labels.mapM plainLabel?
  if plain.all isLabel && (!plain.any (·.any turns) || plain.all keepsDirection) then
    some (['.'].intercalate (labels.map asciiLabel))
  else none

end Domain

end StylesheetImports
