import StylesheetImports.Build.Engine
import StylesheetImports.Build.Graph
import StylesheetImports.Build.SourceMaps
import StylesheetImports.Storage.Cache
import StylesheetImports.Storage.MemoryFiles

set_option autoImplicit false

namespace StylesheetImports

/-- Which of the caches of a session is used, if any. -/
inductive CacheRef where
  | off
  | slot (index : Nat)
  deriving DecidableEq

structure Build where
  engine : Engine
  cache : CacheRef
  maps : SourceMaps

structure Session where
  files : MemoryFiles
  cache : CacheRef
  caches : List DirectoryCache
  builds : List (String × Build)

namespace Session

variable {A : Type}

def start (shared : Bool) : Session :=
  { files := .empty
    cache := if shared then .slot 0 else .off
    caches := [.empty]
    builds := [] }

def build? (s : Session) (name : String) : Option Build :=
  s.builds.lookup name

def setBuild (s : Session) (name : String) (b : Build) : Session :=
  { s with builds := (name, b) :: s.builds.filter (fun (n, _) => n ≠ name) }

def remembered (s : Session) (ref : CacheRef) (dir : Path) : Option Directory :=
  match ref with
  | .off => none
  | .slot i => (s.caches[i]?).bind (·.get? dir)

def remember (s : Session) (ref : CacheRef) (dir : Path) (d : Directory) : Session :=
  match ref with
  | .off => s
  | .slot i => { s with caches := s.caches.modify i (·.set dir d) }

def cacheSize (s : Session) : Nat :=
  ((s.caches[0]?).map (·.size)).getD 0

def clearCache (s : Session) : Session :=
  { s with caches := s.caches.modify 0 (fun _ => .empty) }

def newCache (s : Session) : CacheRef × Session :=
  (.slot s.caches.length, { s with caches := s.caches ++ [.empty] })

def populate (ref : CacheRef) (dir : Path) : StateM Session (Option Directory) := fun s =>
  let (listing, files) := s.files.list dir
  let s := { s with files }
  match listing.map Directory.ofListing with
  | none => (none, s)
  | some d => (some d, s.remember ref dir d)

def lookup (ref : CacheRef) (dir : Path) : StateM Session (Option Directory) := fun s =>
  match s.remembered ref dir with
  | some d => (some d, s)
  | none => populate ref dir s

def read (file : Path) : StateM Session (Option String) := fun s =>
  let (text, files) := s.files.read file
  (text, { s with files })

def record (name : String) (location : Url) (map : OffsetMap) : StateM Session Unit := fun s =>
  match s.build? name with
  | none => ((), s)
  | some b => ((), s.setBuild name { b with maps := b.maps.record location map })

def directory (ref : CacheRef) : Memory -> Path -> StateM Session (Option Directory)
  | .own, dir => lookup ref dir
  | .common, dir => fun s => lookup s.cache dir s

def answers (ref : CacheRef) (name : String) : Answers (StateM Session) :=
  { directory := directory ref, text := read, record := record name }

def ask (ref : CacheRef) (name : String) (q : Query A) : StateM Session A :=
  q.run (answers ref name)

/-- No graph of this session has more stylesheets than this: each one but the entry is named in a listing,
of now or remembered. -/
def sheetLimit (s : Session) : Nat :=
  let names := s.caches.flatMap (fun c => c.entries.flatMap (fun (_, d) => d.files))
  s.files.files.length + names.length + 1

def addBuild (s : Session) (name : String) (engine : Engine) (cache : CacheRef) : Session :=
  s.setBuild name { engine, cache, maps := .empty }

end Session

end StylesheetImports
