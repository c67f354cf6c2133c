import StylesheetImports.Path.Normal
import StylesheetImports.Url.Reader

set_option autoImplicit false

namespace StylesheetImports

namespace Url

def ofSegments (names : List (List Char)) : Url :=
  { scheme := fileScheme
    authority := some noServer
    route := .segments (if names = [] then [[]] else names)
    query := none
    fragment := none }

def encodeNames (steps : List Component) : List (List Char) :=
  steps.map (fun step => Percent.encode inFileName step.text)

def ofPath? (p : Path) : Option Url :=
  if p.isAbsolute then some (ofSegments (encodeNames (p.normalize.components.drop 1))) else none

def ofDirectory? (p : Path) : Option Url :=
  if p.isAbsolute then
    let names := encodeNames (p.components.drop 1)
    some (ofSegments (if names = [] then [] else names ++ [[]]))
  else none

-- The bytes of a path, with a slash behind a drive at its end.
def closeDrive (bytes : Bytes) : Bytes :=
  match bytes.reverse with
  | mark :: letter :: _ :: _ =>
    if (Char.ofNat letter.toNat).isAlpha && letter.toNat < 0x80 && (mark = 58 || mark = 124) then
      bytes ++ [slash]
    else bytes
  | _ => bytes

def toPath? (u : Url) : Option Path :=
  if u.isFile then
    match u.authority, u.route with
    | some a, .segments names =>
      if a.host = [] || a.host = "localhost".toList then
        some { bytes := closeDrive (names.flatMap (fun name => slash :: Percent.decode (Utf8.encode name))) }
      else none
    | _, _ => none
  else none

def ofSpecifier? (specifier : String) : Option Url :=
  match parse specifier with
  | .ok u => if u.isFile then some u else ofPath? specifier
  | .error _ => ofPath? specifier

def display (u : Url) : String :=
  match u.toPath? with
  | some p => p.display
  | none => toString u

end Url

end StylesheetImports
