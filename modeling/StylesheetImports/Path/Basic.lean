import StylesheetImports.Text.Pieces
import StylesheetImports.Text.Utf8

set_option autoImplicit false

namespace StylesheetImports

structure Path where
  bytes : Bytes
  deriving DecidableEq, Inhabited

-- A step of a path. `current` is a leading `.` of a relative path; other dots do not count.
inductive Component where
  | root
  | current
  | parent
  | name (bytes : Bytes)
  deriving DecidableEq

def slash : UInt8 := 47

def dot : UInt8 := 46

def segments (bytes : Bytes) : List Bytes :=
  pieces (· = slash) bytes

def joinSegments (pieces : List Bytes) : Bytes :=
  [slash].intercalate pieces

theorem joinSegments_segments (bytes : Bytes) : joinSegments (segments bytes) = bytes :=
  intercalate_pieces slash bytes

def isIdle (segment : Bytes) : Bool :=
  segment = [] || segment = [dot]

def Component.ofSegment? (segment : Bytes) : Option Component :=
  if isIdle segment then none
  else if segment = [dot, dot] then some .parent
  else some (.name segment)

def Component.text : Component -> Bytes
  | .root => [slash]
  | .current => [dot]
  | .parent => [dot, dot]
  | .name bytes => bytes

namespace Path

def ofString (text : String) : Path :=
  { bytes := Utf8.encode text.toList }

instance : Coe String Path where
  coe := ofString

def display (p : Path) : String :=
  String.ofList (Utf8.decodeLossy p.bytes)

def text? (p : Path) : Option String :=
  (Utf8.decode? p.bytes).map String.ofList

def isAbsolute (p : Path) : Bool :=
  p.bytes.head? = some slash

def components (p : Path) : List Component :=
  match p.bytes with
  | [] => []
  | b :: rest =>
    if b = slash then .root :: (segments rest).filterMap Component.ofSegment?
    else match segments (b :: rest) with
      | [] => []
      | first :: more =>
        (if first = [dot] then [Component.current] else (Component.ofSegment? first).toList)
          ++ more.filterMap Component.ofSegment?

def ofComponents : List Component -> Path
  | .root :: steps => { bytes := slash :: joinSegments (steps.map Component.text) }
  | steps => { bytes := joinSegments (steps.map Component.text) }

/-- The path `p` read from the directory `base`: `p` alone when it is absolute. -/
def join (base p : Path) : Path :=
  if p.isAbsolute then p
  else if base.bytes = [] || base.bytes.getLast? = some slash then { bytes := base.bytes ++ p.bytes }
  else { bytes := base.bytes ++ slash :: p.bytes }

def trimIdle (pieces : List Bytes) : List Bytes :=
  (pieces.reverse.dropWhile isIdle).reverse

-- The text of `pieces` up to the component before the last, or `none` without a component.
def dropLastComponent (pieces : List Bytes) : Option (List Bytes) :=
  match trimIdle pieces with
  | [] => none
  | kept => some (trimIdle kept.dropLast)

def parent? (p : Path) : Option Path :=
  match p.bytes with
  | [] => none
  | b :: rest =>
    if b = slash then
      (dropLastComponent (segments rest)).map (fun kept => { bytes := slash :: joinSegments kept })
    else match segments (b :: rest) with
      | [] => none
      | first :: more =>
        match dropLastComponent more with
        | some kept => some { bytes := joinSegments (first :: kept) }
        | none => some { bytes := [] }

def ancestorsFrom : Nat -> Path -> List Path
  | 0, p => [p]
  | n + 1, p =>
    match p.parent? with
    | none => [p]
    | some above => p :: ancestorsFrom n above

def ancestors (p : Path) : List Path :=
  ancestorsFrom p.bytes.length p

def fileName? (p : Path) : Option Bytes :=
  match p.components.getLast? with
  | some (.name bytes) => some bytes
  | _ => none

def fileNameText? (p : Path) : Option String :=
  p.fileName?.bind (fun name => (Utf8.decode? name).map String.ofList)

-- What follows the last dot of a file name; a dot in front begins no extension.
def extension? (p : Path) : Option Bytes :=
  p.fileName?.bind fun name =>
    let reversed := name.reverse
    let ext := (reversed.takeWhile (· ≠ dot)).reverse
    match reversed.dropWhile (· ≠ dot) with
    | [] => none
    | [_] => none
    | _ => some ext

def hasExtension (p : Path) (ext : String) : Bool :=
  p.extension? = some (Utf8.encode ext.toList)

end Path

end StylesheetImports
