import StylesheetImports.Path.Normal
import StylesheetImports.Text.Blank

set_option autoImplicit false

namespace StylesheetImports

namespace Reference

def isLetter (c : Char) : Bool := c.isAlpha

def isSchemeChar (c : Char) : Bool :=
  c.isAlphanum || c = '+' || c = '.' || c = '-'

def hasScheme : List Char -> Bool
  | [] => false
  | c :: rest => isLetter c && (rest.dropWhile isSchemeChar).head? = some ':'

def interpolates : List Char -> Bool
  | [] => false
  | '#' :: '\x7b' :: _ => true
  | _ :: rest => interpolates rest

/-- Whether an argument is left alone: it is empty, absolute, a fragment, has a scheme, or is not known
before the stylesheet is compiled. -/
def isSkipped (value : List Char) : Bool :=
  value = [] || value.contains '$' || value.head? = some '/' || value.head? = some '\\'
    || value.head? = some '#' || interpolates value || hasScheme value

def isNameChar (c : Char) : Bool :=
  c.isAlphanum || c = '_' || c = '-'

def callsName : List Char -> Bool
  | [] => false
  | c :: rest => (isLetter c || c = '_') && (rest.dropWhile isNameChar).head? = some '('

-- Whether an argument, as it is written, calls a function such as `var(--bg)`.
def isCall : List Char -> Bool
  | '-' :: rest => callsName rest
  | text => callsName text

-- Whether a character ends or breaks an argument without quotes.
def needsEscape (c : Char) : Bool :=
  c = '(' || c = ')' || c = '\'' || c = '"' || c = '\\' || isBlank c

def escape : List Char -> List Char
  | [] => []
  | c :: rest => if needsEscape c then '\\' :: c :: escape rest else c :: escape rest

/-- The argument `value` of a stylesheet in `fileDir`, written for a stylesheet in `entryDir`. There is
none for an argument that is left alone or that climbs above the root. -/
def rebase? (value : List Char) (fileDir entryDir : Path) : Option (List Char) :=
  if isSkipped value then none
  else
    let target := fileDir.join { bytes := Utf8.encode value }
    if target.climbsAboveStart then none
    else
      match (target.relativeTo entryDir).toSlash with
      | [] => some ['.']
      | relative => some (escape relative)

end Reference

end StylesheetImports
