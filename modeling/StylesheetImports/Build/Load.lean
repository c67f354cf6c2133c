import StylesheetImports.Rebase.Rebaser
import StylesheetImports.Resolve.Resolution
import StylesheetImports.Stylesheet.Dialect
import StylesheetImports.Url.File

set_option autoImplicit false

namespace StylesheetImports

structure Loaded where
  content : String
  dialect : Dialect
  canonical : Url
  replacements : Nat
  deriving DecidableEq

namespace Rebaser

/-- Loads the stylesheet at a location; there is none when it cannot be read. -/
def load (r : Rebaser) (location : Url) : Query (Option Loaded) :=
  match location.toPath? with
  | none => pure none
  | some path => do
    match ← Query.read path with
    | none => pure none
    | some text =>
      let (content, map) := r.rebase text (path.parent?.getD "/")
      if r.reports && 0 < map.length then Query.report location map
      pure (some { content, dialect := Dialect.ofPath path, canonical := location,
                   replacements := map.length })

end Rebaser

/-- Resolvers in the order in which they are tried, and the rebaser that loads what they find. -/
structure Importers where
  resolvers : List Resolver
  rebaser : Rebaser

namespace Importers

def canonicalize (i : Importers) : Resolver :=
  Resolver.chain i.resolvers

def loadFirst (r : Rebaser) (location : Url) : Nat -> Query (Option Loaded)
  | 0 => pure none
  | count + 1 => do
    match ← r.load location with
    | none => loadFirst r location count
    | some loaded => pure (some loaded)

def load (i : Importers) (location : Url) : Query (Option Loaded) :=
  loadFirst i.rebaser location i.resolvers.length

/-- Resolves a specifier as it stands in the stylesheet at `containing`: next to that stylesheet first,
unless the specifier is a location already. -/
def canonicalizeFrom (i : Importers) (containing : Url) : Resolver := fun specifier fromImport =>
  let alone := i.canonicalize specifier fromImport
  match Url.ofSpecifier? specifier, Url.parse specifier with
  | none, .error _ =>
    match containing.join specifier with
    | .ok joined => Resolver.first [i.canonicalize (toString joined) fromImport, alone]
    | .error _ => alone
  | _, _ => alone

end Importers

end StylesheetImports
