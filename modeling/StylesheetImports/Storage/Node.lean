import StylesheetImports.Path.Basic

set_option autoImplicit false

namespace StylesheetImports

inductive Node where
  | file (content : Bytes)
  | device
  | link (target : Path)
  | directory (entries : List (Bytes × Node))

namespace Node

def isFile : Node -> Bool
  | .file _ => true
  | _ => false

def isDirectory : Node -> Bool
  | .directory _ => true
  | _ => false

def entries : Node -> List (Bytes × Node)
  | .directory entries => entries
  | _ => []

def empty : Node := .directory []

def child? (n : Node) (name : Bytes) : Option Node :=
  n.entries.lookup name

def get? (n : Node) : List Bytes -> Option Node
  | [] => some n
  | name :: names =>
    match n.child? name with
    | none => none
    | some child => child.get? names

def putEntry (name : Bytes) (node : Node) : List (Bytes × Node) -> List (Bytes × Node)
  | [] => [(name, node)]
  | (other, child) :: rest =>
    if name = other then (name, node) :: rest
    else if name < other then (name, node) :: (other, child) :: rest
    else (other, child) :: putEntry name node rest

def removeEntry (name : Bytes) (entries : List (Bytes × Node)) : List (Bytes × Node) :=
  entries.filter (fun (other, _) => other ≠ name)

def updateEntry (name : Bytes) (change : Node -> Node) : List (Bytes × Node) -> List (Bytes × Node)
  | [] => []
  | (other, child) :: rest =>
    if name = other then (other, change child) :: rest
    else (other, child) :: updateEntry name change rest

def modify (change : List (Bytes × Node) -> List (Bytes × Node)) (n : Node) : List Bytes -> Node
  | [] =>
    match n with
    | .directory entries => .directory (change entries)
    | n => n
  | name :: names =>
    match n with
    | .directory entries =>
      .directory (updateEntry name (fun child => child.modify change names) entries)
    | n => n

def put (n : Node) (dir : List Bytes) (name : Bytes) (node : Node) : Node :=
  n.modify (putEntry name node) dir

def remove (n : Node) (dir : List Bytes) (name : Bytes) : Node :=
  n.modify (removeEntry name) dir

mutual

/-- The nodes below a directory and the names that lead to them, depth first and in the order of names. A
directory that is not to be entered is left out with all below it. -/
def descendants (enters : Bytes -> Bool) (names : List Bytes) : Node -> List (List Bytes × Node)
  | .directory entries => descendantsIn enters names entries
  | _ => []

def descendantsIn (enters : Bytes -> Bool) (names : List Bytes) :
    List (Bytes × Node) -> List (List Bytes × Node)
  | [] => []
  | (name, node) :: rest =>
    let here :=
      if node.isDirectory && !enters name then []
      else (names ++ [name], node) :: descendants enters (names ++ [name]) node
    here ++ descendantsIn enters names rest

end

def files (n : Node) : List (List Bytes × Bytes) :=
  (n.descendants (fun _ => true) []).filterMap fun (names, node) =>
    match node with
    | .file content => some (names, content)
    | _ => none

end Node

end StylesheetImports
