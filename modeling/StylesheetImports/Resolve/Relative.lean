import StylesheetImports.Resolve.Candidates
import StylesheetImports.Resolve.Resolution
import StylesheetImports.Url.File

set_option autoImplicit false

namespace StylesheetImports

structure Place where
  path : Path
  directory : Path
  name : String
  deriving DecidableEq

namespace Place

def ofUrl? (u : Url) : Option Place := do
  let path ← u.toPath?
  let directory ← path.parent?
  let name ← path.fileNameText?
  some { path, directory, name }

end Place

namespace Resolver

/-- The stylesheet that a location means in its directory, or else what `otherwise` says. -/
def atPlace (location : Url) (fromImport : Bool)
    (otherwise : Place -> Directory -> Query Resolution) : Query Resolution :=
  match Place.ofUrl? location with
  | none => pure .absent
  | some place => do
    match ← Query.lookup place.directory with
    | none => pure .absent
    | some d =>
      match Choice.ofFiles ((Stem.ofName place.name.toList).hits d fromImport) with
      | .one file => pure (Resolution.ofLocation? (Url.ofPath? (place.directory.join file)))
      | .several files =>
        pure (.ambiguous (toString location) (files.map (fun (file : String) => place.directory.join file)))
      | .none => otherwise place d

def atIndex (fromImport : Bool) (place : Place) (d : Directory) : Query Resolution :=
  if (Stem.extension? place.name.toList).isNone && d.hasDirectory place.name then
    match Url.ofPath? (place.path.join "index") with
    | none => pure .absent
    | some index => atPlace index fromImport (fun _ _ => pure .absent)
  else pure .absent

def resolve (location : Url) (fromImport allowIndex : Bool) : Query Resolution :=
  atPlace location fromImport (if allowIndex then atIndex fromImport else fun _ _ => pure .absent)

-- Resolves the specifiers that name a file by themselves.
def relative : Resolver := fun specifier fromImport =>
  match Url.ofSpecifier? specifier with
  | some location => resolve location fromImport true
  | none => pure .absent

end Resolver

end StylesheetImports
