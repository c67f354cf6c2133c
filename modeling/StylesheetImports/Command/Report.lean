import StylesheetImports.Build.Graph
import StylesheetImports.Json.Document

set_option autoImplicit false

namespace StylesheetImports

open Json (Document)

def line (text : String) : String := text ++ "\n"

def Url.document (u : Url) : Document := .text (toString u)

def Path.document (p : Path) : Document := .text p.display

structure Resolved where
  specifier : String
  containing : Url
  fromImport : Bool
  location : Option Url

namespace Resolved

def document (r : Resolved) : Document :=
  .object [
    ("specifier", .text r.specifier),
    ("from", .text r.containing.display),
    ("from_import", .truth r.fromImport),
    ("canonical", .ofOption Url.document r.location),
    ("path", .ofOption (fun (u : Url) => .text u.display) r.location)]

def lines (r : Resolved) : String :=
  match r.location with
  | some u => line u.display
  | none => ""

end Resolved

structure Written where
  loaded : Loaded
  output : Option Path

namespace Written

def document (w : Written) : Document :=
  .object [
    ("canonical", w.loaded.canonical.document),
    ("path", .text w.loaded.canonical.display),
    ("dialect", .text w.loaded.dialect.name),
    ("rewrites", .number w.loaded.replacements),
    ("content", .text w.loaded.content),
    ("output", .ofOption Path.document w.output)]

def lines (w : Written) : String :=
  if w.output.isNone then w.loaded.content else ""

end Written

def Sheet.document (s : Sheet) : Document :=
  .object [
    ("url", s.url.document),
    ("path", .text s.url.display),
    ("dialect", .text s.dialect.name),
    ("rewrites", .number s.replacements),
    ("imports", .list (s.imports.map Url.document))]

def Sheet.lines (s : Sheet) : String :=
  line s.url.display ++ String.join (s.imports.map (fun u => line ("  -> " ++ u.display)))

def Missing.document (m : Missing) : Document :=
  .object [("from", m.sheet.document), ("specifier", .text m.specifier)]

namespace Graph

def document (g : Graph) : Document :=
  .object [
    ("entry", g.entry.document),
    ("stylesheets", .list (g.sheets.map Sheet.document)),
    ("unresolved", .list (g.missing.map Missing.document))]

def lines (g : Graph) : String :=
  String.join (g.sheets.map Sheet.lines)
    ++ String.join (g.missing.map (fun m =>
      line ("unresolved: '" ++ m.specifier ++ "' in " ++ m.sheet.display)))

end Graph

structure Checked where
  entry : Path
  stylesheets : Nat
  missing : List Missing
  error : Option String

namespace Checked

def ofGraph (entry : Path) : Except Failure Graph -> Checked
  | .ok g => { entry, stylesheets := g.sheets.length, missing := g.missing, error := none }
  | .error e => { entry, stylesheets := 0, missing := [], error := some e.message }

def document (c : Checked) : Document :=
  .object [
    ("entry", c.entry.document),
    ("stylesheets", .number c.stylesheets),
    ("unresolved", .list (c.missing.map Missing.document)),
    ("error", .ofOption .text c.error)]

def headline (c : Checked) : String :=
  match c.error with
  | some error => "error " ++ c.entry.display ++ ": " ++ error
  | none => "ok    " ++ c.entry.display ++ " (" ++ toString c.stylesheets ++ " stylesheets)"

def lines (c : Checked) : String :=
  line c.headline
    ++ String.join (c.missing.map (fun m => line ("      unresolved '" ++ m.specifier ++ "'")))

end Checked

structure CheckReport where
  root : Path
  entries : List Checked
  cachedDirectories : Nat

namespace CheckReport

def isOk (r : CheckReport) : Bool :=
  r.entries.all (fun c => c.error.isNone)

def failed (r : CheckReport) : Nat :=
  (r.entries.filter (fun c => c.error.isSome)).length

def document (r : CheckReport) : Document :=
  .object [
    ("root", r.root.document),
    ("ok", .truth r.isOk),
    ("entries", .list (r.entries.map Checked.document)),
    ("cached_directories", .number r.cachedDirectories)]

def lines (r : CheckReport) : String :=
  String.join (r.entries.map Checked.lines)
    ++ line ("\n" ++ toString r.entries.length ++ " entries checked, " ++ toString r.failed ++ " failed")

end CheckReport

end StylesheetImports
