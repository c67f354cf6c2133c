import StylesheetImports.PackedSpecifier
import StylesheetImports.Resolve.Relative

set_option autoImplicit false

namespace StylesheetImports

abbrev Finder := (specifier : String) -> (fromImport : Bool) -> (origin : Path) -> Query (Option Url)

namespace Package

/-- A specifier without the first of the marks that it begins with. -/
def strip (marks : List String) (specifier : List Char) : List Char :=
  (marks.findSome? (fun mark => mark.toList.isPrefixOf? specifier)).getD specifier

structure Name where
  scope : Option (List Char)
  name : List Char
  deriving DecidableEq

def name? (bare : List Char) : Option Name :=
  let head := bare.takeWhile (· ≠ '/')
  match bare.head? with
  | none => none
  | some c =>
    if c = '.' || c = '/' then none
    else if c = '@' then
      match bare.dropWhile (· ≠ '/') with
      | [] => some { scope := none, name := head }
      | _ :: rest => some { scope := some head, name := rest.takeWhile (· ≠ '/') }
    else some { scope := none, name := head }

def isIn (package : Name) (modules : Path) : Query Bool := do
  match ← Query.lookup modules with
  | none => pure false
  | some d =>
    match package.scope with
    | none => pure (d.hasDirectory (String.ofList package.name))
    | some scope =>
      if d.hasDirectory (String.ofList scope) then do
        match ← Query.lookup (modules.join (String.ofList scope)) with
        | none => pure false
        | some inner => pure (inner.hasDirectory (String.ofList package.name))
      else pure false

def nearest (bare : List Char) (package : Name) : List Path -> Query (Option Url)
  | [] => pure none
  | dir :: above => do
    let modules := dir.join "node_modules"
    if ← isIn package modules then pure (Url.ofPath? (modules.join (String.ofList bare)))
    else nearest bare package above

/-- Finds packages installed in the origin or above it. -/
def installed (marks : List String) : Finder := fun specifier _ origin =>
  let bare := strip marks specifier.toList
  match name? bare with
  | none => pure none
  | some package => nearest bare package origin.ancestors

end Package

namespace Resolver

-- Resolves a file by its location, and a packed specifier by a finder.
def packages (find : Finder) : Resolver := fun specifier fromImport =>
  match Url.ofSpecifier? specifier with
  | some location => resolve location fromImport true
  | none =>
    match PackedSpecifier.decode? specifier with
    | none => pure .absent
    | some packed => do
      match ← find packed.specifier fromImport packed.origin with
      | none => pure .absent
      | some location => if location.isFile then resolve location fromImport true else pure .absent

end Resolver

end StylesheetImports
