import StylesheetImports.Storage.Directory
import StylesheetImports.Storage.FileFault
import StylesheetImports.Storage.Node

/-!
A disk as a tree of files, and the directory in which relative paths start. Paths are followed segment by
segment: `..` leads to the directory above the one reached, and a link is followed where it stands.
-/

set_option autoImplicit false

namespace StylesheetImports

structure FileTree where
  root : Node
  start : List Bytes

namespace FileTree

-- The longest name that a directory can hold, in bytes.
def nameLimit : Nat := 255

-- A path must be shorter than this, in bytes.
def pathLimit : Nat := 4096

-- The number of links that are followed in one path.
def linkLimit : Nat := 40

/-- Follows segments from the place `here`. A link in the last segment is followed if `last` holds. -/
def follow (root : Node) (last : Bool) (links : Nat) (here todo : List Bytes) :
    Except FileFault (List Bytes × Node) :=
  match root.get? here, todo with
  | none, _ => .error .notFound
  | some node, [] => .ok (here, node)
  | some node, segment :: rest =>
    if !node.isDirectory then .error .notDirectory
    else if isIdle segment then follow root last links here rest
    else if segment = [dot, dot] then follow root last links here.dropLast rest
    else if nameLimit < segment.length then .error .nameTooLong
    else
      match node.child? segment with
      | none => .error .notFound
      | some (.link target) =>
        if rest = [] && !last then .ok (here ++ [segment], .link target)
        else
          match links with
          | 0 => .error .tooManyLinks
          | links + 1 =>
            follow root last links (if target.isAbsolute then [] else here) (segments target.bytes ++ rest)
      | some _ => follow root last links (here ++ [segment]) rest
  termination_by (links, todo.length)

def check (p : Path) : Except FileFault Unit :=
  if p.bytes.contains 0 then .error .nulInName
  else if p.bytes = [] then .error .notFound
  else if pathLimit <= p.bytes.length then .error .nameTooLong
  else .ok ()

def origin (t : FileTree) (p : Path) : List Bytes :=
  if p.isAbsolute then [] else t.start

def locate (t : FileTree) (last : Bool) (p : Path) : Except FileFault (List Bytes × Node) := do
  check p
  follow t.root last linkLimit (t.origin p) (segments p.bytes)

def node (t : FileTree) (p : Path) : Except FileFault Node :=
  (t.locate true p).map (·.2)

def read (t : FileTree) (p : Path) : Except FileFault Bytes := do
  match ← t.node p with
  | .file content => .ok content
  | .directory _ => .error .isDirectory
  | _ => .ok []

-- What a listing tells of an entry of the directory at `dir`. A link counts as what it leads to.
def listed? (t : FileTree) (dir : List Bytes) (name : Bytes) (node : Node) : Option Listed :=
  match Utf8.decode? name with
  | none => none
  | some text =>
    let tell (n : Node) : Listed :=
      { name := String.ofList text, isFile := n.isFile, isDirectory := n.isDirectory }
    match node with
    | .link _ =>
      match follow t.root true linkLimit dir [name] with
      | .ok (_, target) => some (tell target)
      | .error _ => none
    | node => some (tell node)

-- The names in a directory, in ascending order. Links that lead nowhere and names that are not text
-- are left out.
def list (t : FileTree) (p : Path) : Except FileFault (List Listed) := do
  match ← t.locate true p with
  | (dir, .directory entries) =>
    .ok (entries.filterMap (fun (name, node) => t.listed? dir name node))
  | _ => .error .notDirectory

def isFile (t : FileTree) (p : Path) : Bool :=
  match t.node p with
  | .ok n => n.isFile
  | .error _ => false

def isDirectory (t : FileTree) (p : Path) : Bool :=
  match t.node p with
  | .ok n => n.isDirectory
  | .error _ => false

-- The node at a path. A link stands for the directory that it leads to, or else for itself.
def survey (t : FileTree) (p : Path) : Option Node :=
  match t.locate false p with
  | .ok (_, .link target) =>
    match t.node p with
    | .ok n => some (if n.isDirectory then n else .link target)
    | .error _ => some (.link target)
  | .ok (_, n) => some n
  | .error _ => none

structure Slot where
  directory : List Bytes
  name : Bytes
  -- Whether the path asked for a directory by a slash behind the name.
  asDirectory : Bool
  deriving DecidableEq

def Slot.place (s : Slot) : List Bytes :=
  s.directory ++ [s.name]

def slot (t : FileTree) (p : Path) : Except FileFault Slot := do
  check p
  let all := segments p.bytes
  let kept := (all.reverse.dropWhile (· = [])).reverse
  let name := kept.getLast?.getD []
  let (directory, node) ← follow t.root true linkLimit (t.origin p) kept.dropLast
  if !node.isDirectory then .error .notDirectory
  else if isIdle name || name = [dot, dot] then .error .busy
  else if nameLimit < name.length then .error .nameTooLong
  else .ok { directory, name, asDirectory := kept ≠ all }

def inSlot? (t : FileTree) (s : Slot) : Option Node :=
  t.root.get? (s.directory ++ [s.name])

def putSlot (t : FileTree) (s : Slot) (n : Node) : FileTree :=
  { t with root := t.root.put s.directory s.name n }

def removeSlot (t : FileTree) (s : Slot) : FileTree :=
  { t with root := t.root.remove s.directory s.name }

/-- The place of the file that is opened when a path is to be written to; the file need not be there yet. A link is
followed to what is there. -/
def target (t : FileTree) (p : Path) : Except FileFault (List Bytes) := do
  let s ← t.slot p
  match t.inSlot? s with
  | none => if s.asDirectory then .error .isDirectory else .ok s.place
  | some (.file _) => if s.asDirectory then .error .notDirectory else .ok s.place
  | some .device => .ok s.place
  | some (.directory _) => .error .isDirectory
  | some (.link _) =>
    match ← t.locate true p with
    | (_, .directory _) => .error .isDirectory
    | (place, _) => .ok place

-- The tree with a file of this content at a place. A device keeps nothing.
def fill (t : FileTree) (place : List Bytes) (content : Bytes) : FileTree :=
  match t.root.get? place with
  | some .device => t
  | _ => { t with root := t.root.put place.dropLast (place.getLast?.getD []) (.file content) }

def append (t : FileTree) (place : List Bytes) (bytes : Bytes) : FileTree :=
  match t.root.get? place with
  | some (.file content) => t.fill place (content ++ bytes)
  | _ => t

def write (t : FileTree) (p : Path) (content : Bytes) : Except FileFault FileTree := do
  let place ← t.target p
  .ok (t.fill place content)

def createLink (t : FileTree) (p target : Path) : Except FileFault FileTree := do
  let s ← t.slot p
  if (t.inSlot? s).isSome then .error .exists else .ok (t.putSlot s (.link target))

/-- Gives the file at `source` the name `target`, in place of a file or link of that name. -/
def rename (t : FileTree) (source target : Path) : Except FileFault FileTree := do
  let s ← t.slot source
  let d ← t.slot target
  match t.inSlot? s with
  | none => .error .notFound
  | some n =>
    if d.asDirectory then .error .notDirectory
    else if ((t.inSlot? d).map Node.isDirectory).getD false then .error .isDirectory
    else .ok ((t.removeSlot s).putSlot d n)

def removeFile (t : FileTree) (p : Path) : Except FileFault FileTree := do
  let s ← t.slot p
  match t.inSlot? s with
  | none => .error .notFound
  | some n => if n.isDirectory then .error .isDirectory else .ok (t.removeSlot s)

def createDirectory (t : FileTree) (p : Path) : Except FileFault FileTree := do
  let s ← t.slot p
  if (t.inSlot? s).isSome then .error .exists else .ok (t.putSlot s .empty)

-- Makes directories one after the other. Those that are made stay when a later one cannot be made.
def createEach (t : FileTree) : List Path -> Except FileFault Unit × FileTree
  | [] => (.ok (), t)
  | p :: rest =>
    if t.isDirectory p then createEach t rest
    else
      match t.createDirectory p with
      | .error e => (.error e, t)
      | .ok t => createEach t rest

def downTo (p : Path) : List Path :=
  (p.ancestors.filter (·.bytes ≠ [])).reverse

def createDirectories (t : FileTree) (p : Path) : Except FileFault FileTree :=
  let (made, t) := t.createEach (downTo p)
  made.map fun _ => t

end FileTree

end StylesheetImports
