import StylesheetImports.Path.Normal
import StylesheetImports.Storage.Directory

set_option autoImplicit false

namespace StylesheetImports

structure MemoryFiles where
  files : List (Path × String)
  directories : List Path
  reads : Nat
  listings : Nat

namespace MemoryFiles

def empty : MemoryFiles := { files := [], directories := [], reads := 0, listings := 0 }

-- The directories above a normal path and the path itself; the place a relative path starts from
-- has no name.
def lineage (p : Path) : List Path :=
  p.ancestors.takeWhile (·.bytes ≠ [])

def addDirectory (m : MemoryFiles) (p : Path) : MemoryFiles :=
  let new := (lineage p.normalize).filter (fun d => !m.directories.contains d)
  { m with directories := m.directories ++ new }

/-- Adds a file, or replaces it, and the directories above it. -/
def addFile (m : MemoryFiles) (p : Path) (text : String) : MemoryFiles :=
  let p := p.normalize
  let m := match p.parent? with
    | some above => m.addDirectory above
    | none => m
  { m with files := (p, text) :: m.files.filter (fun (q, _) => q ≠ p) }

def removeFile (m : MemoryFiles) (p : Path) : Bool × MemoryFiles :=
  let p := p.normalize
  (m.files.any (fun (q, _) => q = p), { m with files := m.files.filter (fun (q, _) => q ≠ p) })

def text? (m : MemoryFiles) (p : Path) : Option String :=
  m.files.lookup p.normalize

def childNames (dir : Path) (paths : List Path) : List String :=
  let names := (paths.filter (fun p => p.parent? = some dir)).filterMap (fun p => p.fileName?)
  (names.map (fun name => String.ofList (Utf8.decodeLossy name))).mergeSort (fun a b => decide (a <= b))

def listing? (m : MemoryFiles) (p : Path) : Option (List Listed) :=
  let dir := p.normalize
  if m.directories.contains dir then
    some ((childNames dir m.directories).map
        (fun name => { name, isFile := false, isDirectory := true })
      ++ (childNames dir (m.files.map (·.1))).map
        (fun name => { name, isFile := true, isDirectory := false }))
  else none

def read (m : MemoryFiles) (p : Path) : Option String × MemoryFiles :=
  (m.text? p, { m with reads := m.reads + 1 })

def list (m : MemoryFiles) (p : Path) : Option (List Listed) × MemoryFiles :=
  (m.listing? p, { m with listings := m.listings + 1 })

end MemoryFiles

end StylesheetImports
