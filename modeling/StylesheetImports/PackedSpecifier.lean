import StylesheetImports.Path.Basic
import StylesheetImports.Text.Form

/-!
Packed specifiers. The host asks for a specifier without saying where it was written, and a package is
looked up from there; so a package specifier travels together with the directory of its stylesheet.
-/

set_option autoImplicit false

namespace StylesheetImports

/-- A package specifier and the directory of the stylesheet it was written in. -/
structure PackedSpecifier where
  origin : Path
  specifier : String
  deriving DecidableEq

namespace PackedSpecifier

-- What every packed specifier begins with. Its scheme makes it an absolute URL, so no host joins it
-- to the location of a stylesheet.
def marker : List Char := "sassbase-pkg:?".toList

def originKey : List Char := "origin".toList

def specifierKey : List Char := "spec".toList

def encode (p : PackedSpecifier) : String :=
  String.ofList (marker ++ originKey ++ '=' :: Form.encode (Utf8.decodeLossy p.origin.bytes)
    ++ '&' :: specifierKey ++ '=' :: Form.encode p.specifier.toList)

def quoted (p : PackedSpecifier) : String :=
  String.ofList ('"' :: p.encode.toList ++ ['"'])

def isPacked (raw : String) : Bool :=
  marker.isPrefixOf raw.toList

def lastValue? (key : List Char) (pairs : List (List Char × List Char)) : Option (List Char) :=
  pairs.reverse.lookup key

def decode? (raw : String) : Option PackedSpecifier :=
  (marker.isPrefixOf? raw.toList).bind fun written =>
    let pairs := Form.pairs written
    match lastValue? originKey pairs, lastValue? specifierKey pairs with
    | some origin, some specifier =>
      some { origin := { bytes := Utf8.encode origin }, specifier := String.ofList specifier }
    | _, _ => none

def display (raw : String) : String :=
  match decode? raw with
  | some p => p.specifier
  | none => raw

end PackedSpecifier

end StylesheetImports
