import StylesheetImports.Build.Config
import StylesheetImports.Build.Load
import StylesheetImports.Failure
import StylesheetImports.Resolve.LoadPath
import StylesheetImports.Resolve.Package

set_option autoImplicit false

namespace StylesheetImports

structure Engine where
  config : Config
  rebaser : Rebaser
  finder : Finder

namespace Engine

/-- The engine for some settings. It rebases onto `entryDir`, or else onto the directory of the entry, and
finds installed packages unless another finder is given. -/
def build (config : Config) (entryDir : Option Path) (finder : Option Finder) :
    Except Failure Engine :=
  match entryDir.or config.entryDir? with
  | none => .error .noEntry
  | some dir =>
    .ok {
      config
      rebaser := Rebaser.anchored dir config.packageMarks config.sourceMaps
      finder := finder.getD (Package.installed config.packageMarks) }

/-- Locations first, then load paths if there are any, then packages. -/
def resolvers (e : Engine) : List Resolver :=
  Resolver.relative
    :: (if e.config.loadPaths = [] then [] else [Resolver.loadPaths e.config.loadPaths])
    ++ [Resolver.packages e.finder]

def importers (e : Engine) : Importers :=
  { resolvers := e.resolvers, rebaser := e.rebaser }

end Engine

end StylesheetImports
