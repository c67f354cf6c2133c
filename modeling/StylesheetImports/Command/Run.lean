import StylesheetImports.Build.ConfigFile
import StylesheetImports.Build.Engine
import StylesheetImports.Build.Entries
import StylesheetImports.Command.Line
import StylesheetImports.Command.Report
import StylesheetImports.Command.Version

set_option autoImplicit false

namespace StylesheetImports

structure Settings where
  cwd : Path
  json : Bool
  verbosity : Nat
  deriving DecidableEq

structure Outcome where
  exit : Nat
  output : String
  complaint : String
  deriving DecidableEq

namespace Outcome

def printed (output : String) : Outcome := { exit := 0, output, complaint := "" }

def failed (complaint : String) : Outcome := { exit := 1, output := "", complaint := line complaint }

end Outcome

namespace Settings

def present (s : Settings) (document : Json.Document) (lines : String) : String :=
  if s.json then line (toString document) else lines

end Settings

namespace Command

variable {m : Type -> Type} [Monad m]

def located (p : Path) : Except Failure Url :=
  match Url.ofPath? p with
  | some u => .ok u
  | none => .error (.notAbsolute p)

def directoryOf (s : Settings) (file : Path) : Path :=
  file.parent?.getD s.cwd

/-- The engine for some settings, which rebases onto `dir` when they have no entry. -/
def engine (config : Config) (dir : Path) : Except Failure Engine :=
  Engine.build config (if config.entry.isNone then some dir else none) none

-- The number of texts of at most so many bytes.
def textCount : Nat -> Nat
  | 0 => 1
  | length + 1 => 1 + 256 * textCount length

theorem textCount_zero : textCount 0 = 1 := rfl

theorem textCount_succ (length : Nat) : textCount (length + 1) = 1 + 256 * textCount length := rfl

-- The number below is not to be counted down.
attribute [irreducible] textCount

/-- More stylesheets than there are paths to them on a disk. -/
def sheetLimit : Nat := textCount (FileTree.pathLimit + FileTree.nameLimit) + 1

def containing (s : Settings) : Option Path -> Except Failure (Url × Path)
  | some file => do
    let file := s.cwd.absolutize file
    let u ← located file
    .ok (u, directoryOf s file)
  | none =>
    let dir := s.cwd.absolutize "."
    match Url.ofDirectory? dir with
    | some u => .ok (u, dir)
    | none => .error (.notAbsolute dir)

-- A specifier as it would be after a load: packed if it is a package specifier.
def asLoaded (e : Engine) (dir : Path) (specifier : String) : String :=
  if e.rebaser.isPackage specifier then PackedSpecifier.encode { origin := dir, specifier }
  else specifier

def resolved (s : Settings) (r : Resolved) : Outcome :=
  let output := s.present r.document r.lines
  if r.location.isSome then .printed output
  else
    { exit := 1, output
      complaint := if s.json then "" else line ("error: cannot resolve '" ++ r.specifier ++ "'") }

def runResolve (disk : Disk m) (s : Settings) (specifier : String) (file : Option Path)
    (fromImport : Bool) : ExceptT Failure m Outcome := do
  let (containing, dir) ← containing s file
  let config ← Config.discover disk s.cwd
  let engine ← engine config dir
  let (answer, _) ← disk.ask .empty
    (engine.importers.canonicalizeFrom containing (asLoaded engine dir specifier) fromImport)
  match answer with
  | .ambiguous specifier candidates => throw (.ambiguous specifier candidates)
  | .found u => pure (resolved s { specifier, containing, fromImport, location := some u })
  | .absent => pure (resolved s { specifier, containing, fromImport, location := none })

def createAbove (disk : Disk m) (file : Path) : m (Except FileFault Unit) :=
  match file.parent? with
  | some dir => disk.createDirectories dir
  | none => pure (.ok ())

def writeOutput (disk : Disk m) (file : Path) (content : String) : ExceptT Failure m Unit := do
  match ← (createAbove disk file : m (Except FileFault Unit)) with
  | .error e => throw (.io e.message)
  | .ok () =>
    match ← (disk.replace file (Utf8.encode content.toList) : m (Except FileFault Unit)) with
    | .error e => throw (.io e.message)
    | .ok () => pure ()

def withEntry (s : Settings) (config : Config) : Option Path -> Config
  | some entry => { config with entry := some (s.cwd.absolutize entry) }
  | none => config

def loadSheet (disk : Disk m) (s : Settings) (file : Path) (entry : Option Path) : ExceptT Failure m Loaded := do
  let path := s.cwd.absolutize file
  let location ← located path
  let config ← Config.discover disk s.cwd
  let engine ← engine (withEntry s config entry) (directoryOf s path)
  let (answer, _) ← disk.ask .empty (engine.rebaser.load location)
  match answer with
  | none => throw (.unreadable location)
  | some loaded => pure loaded

def runLoad (disk : Disk m) (s : Settings) (file : Path) (entry output : Option Path) :
    ExceptT Failure m Outcome := do
  let loaded ← loadSheet disk s file entry
  let output := output.map s.cwd.absolutize
  match output with
  | none => pure ()
  | some file => writeOutput disk file loaded.content
  let written : Written := { loaded, output }
  pure (.printed (s.present written.document written.lines))

def runGraph (disk : Disk m) (s : Settings) (entry : Path) : ExceptT Failure m Outcome := do
  let entry := s.cwd.absolutize entry
  let location ← located entry
  let config ← Config.discover disk s.cwd
  let engine ← engine { config with entry := some entry } s.cwd
  let (answer, _) ← disk.ask .empty (Graph.walk engine.importers sheetLimit location)
  match answer with
  | .error e => throw e
  | .ok g => pure (.printed (s.present g.document g.lines))

def checkEntry (disk : Disk m) (config : Config) (cache : DirectoryCache) (entry : Path) :
    ExceptT Failure m (Checked × DirectoryCache) := do
  let location ← located entry
  let engine ← Engine.build { config with entry := some entry } none none
  let (answer, cache) ← disk.ask cache (Graph.walk engine.importers sheetLimit location)
  pure (Checked.ofGraph entry answer, cache)

def checkEntries (disk : Disk m) (config : Config) (cache : DirectoryCache) :
    List Path -> ExceptT Failure m (List Checked × DirectoryCache)
  | [] => pure ([], cache)
  | entry :: rest => do
    let (checked, cache) ← checkEntry disk config cache entry
    let (more, cache) ← checkEntries disk config cache rest
    pure (checked :: more, cache)

def runCheck (disk : Disk m) (s : Settings) (dir : Option Path) : ExceptT Failure m Outcome := do
  let root := s.cwd.absolutize (dir.getD ".")
  let config ← Config.discover disk s.cwd
  let found : List Path := ((← disk.survey root).map (Entries.find root)).getD []
  let (entries, cache) ← checkEntries disk config .empty found
  let report : CheckReport := { root, entries, cachedDirectories := cache.size }
  pure { exit := if report.isOk then 0 else 1
         output := s.present report.document report.lines
         complaint := "" }

def run (disk : Disk m) (s : Settings) : Command -> ExceptT Failure m Outcome
  | .version => pure (.printed (line Version.line))
  | .resolve specifier file fromImport => runResolve disk s specifier file fromImport
  | .load file entry output => runLoad disk s file entry output
  | .graph entry => runGraph disk s entry
  | .check dir => runCheck disk s dir

def usage : String :=
  String.join (List.map line [
    "Resolve, rebase and inspect Sass import graphs",
    "",
    "Usage: sassbase [-v]... [--json] [--cwd PATH] [COMMAND]",
    "",
    "Commands:",
    "  version                                         Print the version",
    "  resolve SPECIFIER [--from FILE] [--import]      Tell which stylesheet a specifier names",
    "  load FILE [--entry FILE] [-o FILE]              Rebase the references of a stylesheet",
    "  graph ENTRY                                     Tell what an entry stylesheet imports",
    "  check [DIR]                                     Resolve every entry stylesheet below a directory"])

def stopped : Stop -> Outcome
  | .help => .printed usage
  | .version => .printed (line Version.line)
  | .malformed => { exit := 2, output := "", complaint := usage }

def invoke (disk : Disk m) (i : Invocation) : m Outcome := do
  let cwd ← match i.cwd with
    | some cwd => pure cwd
    | none => disk.start
  match ← (run disk { cwd, json := i.json, verbosity := i.verbosity } i.command).run with
  | .ok outcome => pure outcome
  | .error e => pure (.failed e.message)

def runLine (disk : Disk m) (words : List String) : m Outcome :=
  match ofLine words with
  | .error stop => pure (stopped stop)
  | .ok i => invoke disk i

end Command

end StylesheetImports
