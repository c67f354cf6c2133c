import StylesheetImports.Build.Load
import StylesheetImports.Failure

set_option autoImplicit false

namespace StylesheetImports

structure Sheet where
  url : Url
  dialect : Dialect
  replacements : Nat
  imports : List Url
  deriving DecidableEq

structure Missing where
  sheet : Url
  specifier : String
  deriving DecidableEq

structure Graph where
  entry : Url
  sheets : List Sheet
  missing : List Missing
  deriving DecidableEq

namespace Graph

def hostMarks : List (List Char) :=
  ["sass:".toList, "http://".toList, "https://".toList, "//".toList]

-- Whether a specifier is the host's business.
def isHosts (specifier : String) : Bool :=
  hostMarks.any (fun mark => mark.isPrefixOf specifier.toList)

-- Whether a specifier that resolves to nothing stays a plain import of the compiled stylesheet.
def staysPlain (s : Specifier) : Bool :=
  s.fromImport && (Path.ofString s.value).hasExtension "css"

structure Links where
  imports : List Url
  missing : List Missing
  deriving DecidableEq

-- Resolves the specifiers of the stylesheet at `sheet`. An ambiguity ends it.
def links (i : Importers) (sheet : Url) : List Specifier -> Query (Except Failure Links)
  | [] => pure (.ok { imports := [], missing := [] })
  | s :: rest => do
    if isHosts s.value then links i sheet rest
    else
      match ← i.canonicalizeFrom sheet s.value s.fromImport with
      | .ambiguous specifier candidates => pure (.error (.ambiguous specifier candidates))
      | .found u =>
        match ← links i sheet rest with
        | .error e => pure (.error e)
        | .ok l => pure (.ok { l with imports := u :: l.imports })
      | .absent =>
        match ← links i sheet rest with
        | .error e => pure (.error e)
        | .ok l =>
          if staysPlain s then pure (.ok l)
          else
            let lost : Missing := { sheet, specifier := PackedSpecifier.display s.value }
            pure (.ok { l with missing := lost :: l.missing })

def newIn (known : List Url) : List Url -> List Url
  | [] => []
  | u :: rest =>
    if known.contains u then newIn known rest else u :: newIn (u :: known) rest

/-- Visits the stylesheets in `queue` and those they lead to, at most `limit` of them. -/
def visit (i : Importers) (entry : Url) :
    (limit : Nat) -> (known queue : List Url) -> Query (Except Failure Graph)
  | _, _, [] => pure (.ok { entry, sheets := [], missing := [] })
  | 0, known, _ :: _ => pure (.error (.tooManySheets known.length))
  | limit + 1, known, u :: queue => do
    match ← i.load u with
    | none =>
      if u = entry then pure (.error (.unreadable entry)) else visit i entry limit known queue
    | some loaded =>
      match ← links i u (Scan.ofText loaded.content).specifiers with
      | .error e => pure (.error e)
      | .ok l =>
        let new := newIn known l.imports
        match ← visit i entry limit (known ++ new) (queue ++ new) with
        | .error e => pure (.error e)
        | .ok graph =>
          let sheet : Sheet :=
            { url := u, dialect := loaded.dialect, replacements := loaded.replacements, imports := l.imports }
          pure (.ok { graph with
            sheets := sheet :: graph.sheets
            missing := l.missing ++ graph.missing })

/-- The graph that the stylesheet at `entry` reaches, if it has at most `limit` stylesheets. -/
def walk (i : Importers) (limit : Nat) (entry : Url) : Query (Except Failure Graph) :=
  visit i entry limit [entry] [entry]

end Graph

end StylesheetImports
