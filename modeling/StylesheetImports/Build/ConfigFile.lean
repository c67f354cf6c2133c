import StylesheetImports.Build.Config
import StylesheetImports.Failure
import StylesheetImports.Json.Value
import StylesheetImports.Storage.Disk

set_option autoImplicit false

namespace StylesheetImports

namespace Config

structure Draft where
  entry : Option (Option Path)
  loadPaths : Option (List Path)
  packageMarks : Option (List String)
  sourceMaps : Option Bool
  deriving DecidableEq

inductive Setting where
  | entry
  | loadPaths
  | packageMarks
  | sourceMaps
  deriving DecidableEq

def Setting.ofName? (name : String) : Option Setting :=
  [("entry", Setting.entry), ("loadPaths", .loadPaths), ("packagePrefixes", .packageMarks),
    ("sourceMaps", .sourceMaps)].lookup name

namespace Draft

def empty : Draft := { entry := none, loadPaths := none, packageMarks := none, sourceMaps := none }

def has (d : Draft) : Setting -> Bool
  | .entry => d.entry.isSome
  | .loadPaths => d.loadPaths.isSome
  | .packageMarks => d.packageMarks.isSome
  | .sourceMaps => d.sourceMaps.isSome

def toConfig (d : Draft) : Config :=
  { entry := d.entry.getD Config.default.entry
    loadPaths := d.loadPaths.getD Config.default.loadPaths
    packageMarks := d.packageMarks.getD Config.default.packageMarks
    sourceMaps := d.sourceMaps.getD Config.default.sourceMaps }

def take (d : Draft) (setting : Setting) (text : List Char) : Except Malformed (Draft × List Char) :=
  match setting with
  | .entry =>
    (Json.textOrNull text).map
      (fun (v, rest) => ({ d with entry := some (v.map Path.ofString) }, rest))
  | .loadPaths =>
    (Json.texts text).map (fun (v, rest) => ({ d with loadPaths := some (v.map Path.ofString) }, rest))
  | .packageMarks => (Json.texts text).map (fun (v, rest) => ({ d with packageMarks := some v }, rest))
  | .sourceMaps => (Json.truth text).map (fun (v, rest) => ({ d with sourceMaps := some v }, rest))

def takeMember (d : Draft) (text : List Char) : Except Malformed (Draft × List Char) := do
  let (name, rest) ← Json.string true text
  let setting := Setting.ofName? (String.ofList name)
  if (setting.map d.has).getD false then .error .data
  else
    match Json.skipSpace rest with
    | [] => .error .ending
    | ':' :: rest =>
      match setting with
      | some setting => d.take setting rest
      | none => (Json.skipValue rest).map (fun rest => (d, rest))
    | _ => .error .grammar

def takeMembers : Nat -> Bool -> Draft -> List Char -> Except Malformed (Draft × List Char)
  | 0, _, _, _ => .error .ending
  | fuel + 1, isFirst, d, text =>
    let member (rest : List Char) : Except Malformed (Draft × List Char) := do
      let (d, rest) ← d.takeMember rest
      takeMembers fuel false d rest
    match Json.skipSpace text with
    | [] => .error .ending
    | '\x7d' :: rest => .ok (d, rest)
    | '"' :: rest => if isFirst then member rest else .error .grammar
    | ',' :: rest =>
      if isFirst then .error .grammar
      else
        match Json.skipSpace rest with
        | [] => .error .ending
        | '"' :: rest => member rest
        | _ => .error .grammar
    | _ => .error .grammar

def takeItems : List Setting -> Bool -> Draft -> List Char -> Except Malformed (Draft × List Char)
  | [], _, d, text =>
    match Json.skipSpace text with
    | [] => .error .ending
    | ']' :: rest => .ok (d, rest)
    | _ => .error .grammar
  | setting :: settings, isFirst, d, text =>
    let item (rest : List Char) : Except Malformed (Draft × List Char) := do
      let (d, rest) ← d.take setting rest
      takeItems settings false d rest
    match Json.skipSpace text with
    | [] => .error .ending
    | ']' :: rest => .ok (d, rest)
    | ',' :: rest =>
      if isFirst then item (',' :: rest)
      else
        match Json.skipSpace rest with
        | [] => .error .ending
        | ']' :: _ => .error .grammar
        | rest => item rest
    | rest => if isFirst then item rest else .error .grammar

def takeAll (text : List Char) : Except Malformed (Draft × List Char) :=
  match Json.skipSpace text with
  | [] => .error .ending
  | '\x7b' :: rest => takeMembers (rest.length + 1) true empty rest
  | '[' :: rest => takeItems [.entry, .loadPaths, .packageMarks, .sourceMaps] true empty rest
  | other => .error (Json.wrongKind other)

end Draft

def ofText (text : String) : Except Malformed Config := do
  let (d, rest) ← Draft.takeAll text.toList
  if Json.skipSpace rest = [] then .ok d.toConfig else .error .grammar

variable {m : Type -> Type} [Monad m]

def load (disk : Disk m) (file : Path) : ExceptT Failure m Config := do
  match ← (disk.readText file : m (Except FileFault String)) with
  | .error e => throw (.configUnreadable file e.message)
  | .ok text =>
    match ofText text with
    | .error problem => throw (.configMalformed file problem)
    | .ok c => pure (c.resolveFrom (file.parent?.getD "."))

def discover (disk : Disk m) (dir : Path) : ExceptT Failure m Config := do
  let file := dir.join fileName
  if ← disk.isFile file then load disk file else pure Config.default

end Config

end StylesheetImports
