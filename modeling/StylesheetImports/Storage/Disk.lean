import StylesheetImports.Storage.Cache
import StylesheetImports.Storage.FileTree
import StylesheetImports.Storage.Query

set_option autoImplicit false

namespace StylesheetImports

structure OpenFile (m : Type -> Type) where
  write : Bytes -> m (Except FileFault Unit)
  -- Waits until the bytes have reached the disk.
  sync : m (Except FileFault Unit)

structure Disk (m : Type -> Type) where
  -- The directory in which relative paths start.
  start : m Path
  -- Marks the temporary files of this run.
  mark : m String
  read : Path -> m (Except FileFault Bytes)
  list : Path -> m (Except FileFault (List Listed))
  isFile : Path -> m Bool
  survey : Path -> m (Option Node)
  create : Path -> m (Except FileFault (OpenFile m))
  rename : (source target : Path) -> m (Except FileFault Unit)
  remove : Path -> m (Except FileFault Unit)
  createDirectories : Path -> m (Except FileFault Unit)

namespace Disk

variable {m : Type -> Type} [Monad m]

def readLossy (d : Disk m) (p : Path) : m (Except FileFault String) := do
  match ← d.read p with
  | .error e => pure (.error e)
  | .ok bytes => pure (.ok (String.ofList (Utf8.decodeLossy bytes)))

def readText (d : Disk m) (p : Path) : m (Except FileFault String) := do
  match ← d.read p with
  | .error e => pure (.error e)
  | .ok bytes =>
    match Utf8.decode? bytes with
    | none => pure (.error .notText)
    | some text => pure (.ok (String.ofList text))

def temporary (mark : String) (p : Path) : Path :=
  let name := p.fileNameText?.getD "out"
  (p.parent?.getD ".").join ("." ++ name ++ ".tmp." ++ mark)

def store (d : Disk m) (p : Path) (content : Bytes) : m (Except FileFault Unit) := do
  match ← d.create p with
  | .error e => pure (.error e)
  | .ok file =>
    match ← file.write content with
    | .error e => pure (.error e)
    | .ok () => file.sync

/-- Puts a file in place of what is at a path: it is written beside the path first, and then it is given its name. -/
def replace (d : Disk m) (p : Path) (content : Bytes) : m (Except FileFault Unit) := do
  let temp := temporary (← d.mark) p
  match ← d.store temp content with
  | .error e => pure (.error e)
  | .ok () =>
    match ← d.rename temp p with
    | .ok () => pure (.ok ())
    | .error e => do
      let _ ← d.remove temp
      pure (.error e)

def lookup (d : Disk m) (dir : Path) : StateT DirectoryCache m (Option Directory) := do
  match (← get).get? dir with
  | some known => pure (some known)
  | none =>
    match ← d.list dir.normalize with
    | .error _ => pure none
    | .ok listing => do
      let found := Directory.ofListing listing
      modify (·.set dir found)
      pure (some found)

def answers (d : Disk m) : Answers (StateT DirectoryCache m) :=
  { directory := fun _ dir => d.lookup dir
    text := fun file => do
      match ← d.readLossy file with
      | .error _ => pure none
      | .ok text => pure (some text)
    record := fun _ _ => pure () }

def ask {A : Type} (d : Disk m) (cache : DirectoryCache) (q : Query A) : m (A × DirectoryCache) :=
  (q.run d.answers).run cache

end Disk

namespace FileTree

-- A change of a tree, which stays as it is when the change fails.
def change (f : FileTree -> Except FileFault FileTree) : StateM FileTree (Except FileFault Unit) :=
  fun t =>
    match f t with
    | .error e => (.error e, t)
    | .ok t => (.ok (), t)

/-- What goes wrong on a disk beside what the tree itself refuses, as when no space is left. -/
structure Mishaps where
  create : Path -> Option FileFault
  -- The number tells how many of the bytes are written all the same.
  write : Path -> Bytes -> Option (Nat × FileFault)
  sync : Path -> Option FileFault
  rename : (source target : Path) -> Option FileFault
  remove : Path -> Option FileFault

namespace Mishaps

def none : Mishaps :=
  { create := fun _ => .none
    write := fun _ _ => .none
    sync := fun _ => .none
    rename := fun _ _ => .none
    remove := fun _ => .none }

def kept (w : Mishaps) (p : Path) (bytes : Bytes) : Bytes :=
  match w.write p bytes with
  | .none => bytes
  | some (count, _) => bytes.take count

end Mishaps

def outcome : Option FileFault -> Except FileFault Unit
  | none => .ok ()
  | some e => .error e

def barring {A : Type} (mishap : Option FileFault) (action : StateM FileTree (Except FileFault A)) :
    StateM FileTree (Except FileFault A) :=
  match mishap with
  | none => action
  | some e => pure (.error e)

def openFile (w : Mishaps) (p : Path) (place : List Bytes) : OpenFile (StateM FileTree) :=
  { write := fun bytes t => (outcome ((w.write p bytes).map (·.2)), t.append place (w.kept p bytes))
    sync := pure (outcome (w.sync p)) }

def create (w : Mishaps) (p : Path) : StateM FileTree (Except FileFault (OpenFile (StateM FileTree))) :=
  fun t =>
    match t.target p with
    | .error e => (.error e, t)
    | .ok place => (.ok (openFile w p place), t.fill place [])

/-- The disk that is a tree of files, on which this goes wrong. Temporary files bear `mark`. -/
def diskWith (w : Mishaps) (mark : String) : Disk (StateM FileTree) :=
  { start := return { bytes := slash :: joinSegments (← get).start }
    mark := pure mark
    read := fun p => return (← get).read p
    list := fun p => return (← get).list p
    isFile := fun p => return (← get).isFile p
    survey := fun p => return (← get).survey p
    create := fun p => barring (w.create p) (create w p)
    rename := fun source target => barring (w.rename source target) (change (·.rename source target))
    remove := fun p => barring (w.remove p) (change (·.removeFile p))
    createDirectories := fun p t => t.createEach (downTo p) }

def disk (mark : String) : Disk (StateM FileTree) :=
  diskWith .none mark

end FileTree

end StylesheetImports
