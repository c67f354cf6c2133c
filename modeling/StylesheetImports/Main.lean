import StylesheetImports.Command.Run

set_option autoImplicit false

namespace StylesheetImports

namespace Machine

def native (p : Path) :=
  show IO _ from do
    match p.text? with
    | some text => pure ((← IO.currentDir) / text)
    | none => throw (IO.userError ("not a UTF-8 path: " ++ p.display))

def attempt {A : Type} (action : IO A) : IO (Except FileFault A) := do
  try
    pure (.ok (← action))
  catch e => pure (.error (.other (toString e)))

def read (p : Path) : IO Bytes := do
  let file ← native p
  pure (← IO.FS.readBinFile file).toList

def list (p : Path) : IO (List Listed) := do
  let dir ← native p
  let entries ← dir.readDir
  let listed ← entries.toList.mapM fun e => do
    try
      let kind := (← e.path.metadata).type
      pure (some
        { name := e.fileName, isFile := kind == .file, isDirectory := kind == .dir : Listed })
    catch _ => pure none
  pure (listed.filterMap id)

def isFile (p : Path) : IO Bool := do
  try
    let file ← native p
    pure ((← file.metadata).type == .file)
  catch _ => pure false

-- The tree at a path, without the content of its files. A link stands for the directory that it
-- leads to only at the top.
partial def outline (p : Path) (isTop : Bool) : IO Node := do
  let here ← native p
  let followed ← if isTop then attempt here.metadata else pure (.error .notFound)
  let kind ← match followed with
    | .ok found => if found.type == .dir then pure found.type else pure (← here.symlinkMetadata).type
    | .error _ => pure (← here.symlinkMetadata).type
  match kind with
  | .file => pure (.file [])
  | .symlink => pure (.link p)
  | .other => pure .device
  | .dir =>
    let mut entries : List (Bytes × Node) := []
    for e in ← here.readDir do
      if let .ok child ← attempt (outline (p.join e.fileName) false) then
        entries := Node.putEntry (Utf8.encode e.fileName.toList) child entries
    pure (.directory entries)

def survey (p : Path) : IO (Option Node) := do
  match ← attempt (outline p true) with
  | .ok n => pure (some n)
  | .error _ => pure none

def openFile (handle : IO.FS.Handle) : IO (OpenFile IO) :=
  pure { write := fun content => attempt (handle.write ⟨content.toArray⟩), sync := attempt handle.flush }

def disk : Disk IO :=
  { start := return Path.ofString (← IO.currentDir).toString
    mark := return toString (← IO.monoNanosNow)
    read := fun p => attempt (read p)
    list := fun p => attempt (list p)
    isFile := isFile
    survey := survey
    create := fun p => attempt do openFile (← IO.FS.Handle.mk (← native p) .write)
    rename := fun source target => attempt do IO.FS.rename (← native source) (← native target)
    remove := fun p => attempt do IO.FS.removeFile (← native p)
    createDirectories := fun p => attempt do IO.FS.createDirAll (← native p) }

end Machine

end StylesheetImports

open StylesheetImports in
def main (words : List String) : IO UInt32 := do
  let outcome ← Command.runLine Machine.disk words
  IO.print outcome.output
  IO.eprint outcome.complaint
  pure (UInt32.ofNat outcome.exit)
