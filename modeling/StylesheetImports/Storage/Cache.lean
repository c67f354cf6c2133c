import StylesheetImports.Path.Normal
import StylesheetImports.Storage.Directory

set_option autoImplicit false

namespace StylesheetImports

structure DirectoryCache where
  entries : List (Path × Directory)

namespace DirectoryCache

def empty : DirectoryCache := { entries := [] }

def get? (c : DirectoryCache) (dir : Path) : Option Directory :=
  c.entries.lookup dir.normalize

def set (c : DirectoryCache) (dir : Path) (d : Directory) : DirectoryCache :=
  { entries := (dir.normalize, d) :: c.entries.filter (fun (q, _) => q ≠ dir.normalize) }

def size (c : DirectoryCache) : Nat :=
  c.entries.length

end DirectoryCache

end StylesheetImports
