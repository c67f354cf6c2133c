import StylesheetImports.Path.Normal
import StylesheetImports.Rebase.Rebaser

set_option autoImplicit false

namespace StylesheetImports

structure Config where
  entry : Option Path
  loadPaths : List Path
  packageMarks : List String
  sourceMaps : Bool
  deriving DecidableEq

namespace Config

def default : Config :=
  { entry := none, loadPaths := [], packageMarks := Rebaser.defaultMarks, sourceMaps := false }

def fileName : String := "sassbase.json"

def entryDir? (c : Config) : Option Path :=
  c.entry.bind Path.parent?

def resolveFrom (c : Config) (base : Path) : Config :=
  { c with
    entry := c.entry.map base.absolutize
    loadPaths := c.loadPaths.map base.absolutize }

end Config

end StylesheetImports
