import StylesheetImports.Rebase.OffsetMap
import StylesheetImports.Url.Basic

set_option autoImplicit false

namespace StylesheetImports

structure SourceMaps where
  entries : List (Url × OffsetMap)

namespace SourceMaps

def empty : SourceMaps := { entries := [] }

def get? (m : SourceMaps) (location : Url) : Option OffsetMap :=
  m.entries.lookup location

def record (m : SourceMaps) (location : Url) (map : OffsetMap) : SourceMaps :=
  { entries := (location, map) :: m.entries.filter (fun (u, _) => u ≠ location) }

def size (m : SourceMaps) : Nat :=
  m.entries.length

end SourceMaps

end StylesheetImports
