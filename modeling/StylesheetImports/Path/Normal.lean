import StylesheetImports.Path.Basic

/-!
The lexical normal form of a path: no `.`, and `..` only in front of a relative path. On it rest the
comparison of locations and the path from one directory to a file.
-/

set_option autoImplicit false

namespace StylesheetImports

namespace Component

/-- One step on a stack of steps, newest first: `..` takes back a name, stays at the root, and is kept
where there is nothing to take back. -/
def push : List Component -> Component -> List Component
  | stack, .current => stack
  | .name _ :: below, .parent => below
  | .root :: below, .parent => .root :: below
  | stack, .parent => .parent :: stack
  | stack, step => step :: stack

-- The steps with every `.` dropped and every `..` taken back as far as possible.
def fold (steps : List Component) : List Component :=
  (steps.foldl push []).reverse

-- The number of leading steps that two lists share.
def shared : List Component -> List Component -> Nat
  | a :: as, b :: bs => if a = b then shared as bs + 1 else 0
  | _, _ => 0

def climbsAbove : Nat -> List Component -> Bool
  | _, [] => false
  | depth, .name _ :: rest => climbsAbove (depth + 1) rest
  | 0, .parent :: _ => true
  | depth + 1, .parent :: rest => climbsAbove depth rest
  | depth, _ :: rest => climbsAbove depth rest

end Component

namespace Path

/-- The lexical normal form. `..` never climbs above the root of an absolute path and is kept in front
of a relative one. -/
def normalize (p : Path) : Path :=
  ofComponents (Component.fold p.components)

def absolutize (dir path : Path) : Path :=
  (dir.join path).normalize

/-- The path from the directory `base` to `target`. A target with another root than `base` has none and
stays as it is. -/
def relativeTo (target base : Path) : Path :=
  let there := target.normalize
  let steps := there.components
  let here := base.normalize.components
  if steps.head? ≠ here.head? && there.isAbsolute then there
  else
    let common := Component.shared steps here
    ofComponents (List.replicate (here.length - common) .parent ++ steps.drop common)

-- The steps of a relative path with a slash between each two; a root does not show.
def toSlash (p : Path) : List Char :=
  ['/'].intercalate ((p.components.filter (· ≠ .root)).map (fun step => Utf8.decodeLossy step.text))

def climbsAboveStart (p : Path) : Bool :=
  Component.climbsAbove 0 p.components

end Path

end StylesheetImports
