set_option autoImplicit false

namespace StylesheetImports

structure Listed where
  name : String
  isFile : Bool
  isDirectory : Bool
  deriving DecidableEq

structure Directory where
  files : List String
  directories : List String
  deriving DecidableEq

namespace Directory

def insertName (name : String) : List String -> List String
  | [] => [name]
  | other :: rest =>
    if name = other then other :: rest
    else if name < other then name :: other :: rest
    else other :: insertName name rest

theorem mem_insertName {name a : String} {names : List String} :
    a ∈ insertName name names ↔ a = name ∨ a ∈ names := by
  induction names with
  | nil => simp [insertName]
  | cons other rest ih =>
    unfold insertName
    split
    next h => simp_all
    next =>
      split
      next => simp
      next => simp [ih, or_left_comm]

-- The directory that a listing tells of. A name that points at both counts as a file.
def ofListing (listing : List Listed) : Directory :=
  { files := ((listing.filter (·.isFile)).map (·.name)).foldr insertName []
    directories :=
      ((listing.filter (fun e => !e.isFile && e.isDirectory)).map (·.name)).foldr insertName [] }

def hasFile (d : Directory) (name : String) : Bool :=
  d.files.contains name

def hasDirectory (d : Directory) (name : String) : Bool :=
  d.directories.contains name

end Directory

end StylesheetImports
