import StylesheetImports.Storage.Node

set_option autoImplicit false

namespace StylesheetImports

namespace Entries

def enters (name : Bytes) : Bool :=
  match Utf8.decode? name with
  | some text => !(text = "node_modules".toList || text.head? = some '.')
  | none => true

def isPartial (p : Path) : Bool :=
  match p.fileNameText? with
  | some name => "_".toList.isPrefixOf name.toList
  | none => false

def isEntry (p : Path) : Bool :=
  (p.hasExtension "scss" || p.hasExtension "sass") && !isPartial p

def pathBelow (root : Path) (names : List Bytes) : Path :=
  names.foldl (fun p name => p.join { bytes := name }) root

/-- The entries at or below `root`, where the tree `node` stands. -/
def find (root : Path) : Node -> List Path
  | .file _ => [root].filter isEntry
  | node =>
    let found := (node.descendants enters []).filter (fun (_, n) => n.isFile)
    (found.map (fun (names, _) => pathBelow root names)).filter isEntry

end Entries

end StylesheetImports
