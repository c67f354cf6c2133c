import StylesheetImports.Command.Run
import StylesheetImports.Proofs.Storage.Disk

set_option autoImplicit false

namespace StylesheetImports

open FileTree

namespace Command

variable {A B : Type} {mark : String} {t : FileTree}

theorem run_bind_ok {x : ExceptT Failure (StateM FileTree) A} {f : A -> ExceptT Failure (StateM FileTree) B}
    {a : A} {t t' : FileTree} (ran : x.run.run t = (.ok a, t')) : (x >>= f).run.run t = (f a).run.run t' := by
  rw [ExceptT.run_bind, StateT.run_bind, ran]
  rfl

theorem run_bind_error {x : ExceptT Failure (StateM FileTree) A} {f : A -> ExceptT Failure (StateM FileTree) B}
    {e : Failure} {t t' : FileTree} (ran : x.run.run t = (.error e, t')) : (x >>= f).run.run t = (.error e, t') := by
  rw [ExceptT.run_bind, StateT.run_bind, ran]
  rfl

theorem run_liftM (x : StateM FileTree A) (t : FileTree) :
    (liftM x : ExceptT Failure (StateM FileTree) A).run.run t = (.ok (x.run t).1, (x.run t).2) :=
  rfl

/-- The action comes to `v` and leaves the tree as it is. -/
def Reads (t : FileTree) (x : ExceptT Failure (StateM FileTree) A) (v : Except Failure A) : Prop :=
  x.run.run t = (v, t)

theorem reads_pure (a : A) : Reads t (pure a) (.ok a) := rfl

theorem reads_throw (e : Failure) : Reads t (throw e : ExceptT Failure (StateM FileTree) A) (.error e) := rfl

theorem reads_except (v : Except Failure A) : Reads t (liftM v) v := by
  cases v <;> rfl

theorem Reads.bind {x : ExceptT Failure (StateM FileTree) A} {v : Except Failure A}
    {f : A -> ExceptT Failure (StateM FileTree) B} {g : A -> Except Failure B} (first : Reads t x v)
    (later : ∀ a, Reads t (f a) (g a)) : Reads t (x >>= f) (v >>= g) := by
  cases v with
  | error e => exact run_bind_error first
  | ok a => exact (run_bind_ok first).trans (later a)

theorem reads_ask (mark : String) (q : Query A) {f : A × DirectoryCache -> ExceptT Failure (StateM FileTree) B}
    {v : Except Failure B} (later : ∀ c, Reads t (f (q.eval t.view, c)) v) :
    Reads t (liftM ((disk mark).ask .empty q) >>= f) v := by
  obtain ⟨filled, asked, -⟩ := ask_view mark t q (DirectoryCache.faithful_empty t.view)
  refine (run_bind_ok ?_).trans (later filled)
  rw [run_liftM, asked]

theorem run_discover (mark : String) (t : FileTree) (dir : Path) :
    (Config.discover (FileTree.disk mark) dir).run.run t =
      if t.isFile (dir.join Config.fileName) then
        (Config.load (FileTree.disk mark) (dir.join Config.fileName)).run.run t
      else (.ok Config.default, t) := by
  let file := dir.join Config.fileName
  change (if t.isFile file then Config.load (FileTree.disk mark) file else pure Config.default).run.run t = _
  split <;> rfl

theorem load_tree (mark : String) (t : FileTree) (file : Path) :
    ((Config.load (FileTree.disk mark) file).run.run t).2 = t := by
  rw [Config.load, ExceptT.run_bind, StateT.run_bind, ExceptT.run_liftM, StateT.run_map, FileTree.run_readText,
    map_pure, pure_bind]
  cases FileTree.asText (t.read file) with
  | error e => rfl
  | ok text =>
    dsimp only
    cases Config.ofText text <;> rfl

theorem discover_tree (mark : String) (t : FileTree) (dir : Path) :
    ((Config.discover (FileTree.disk mark) dir).run.run t).2 = t := by
  rw [run_discover]
  split
  next => exact load_tree mark t _
  next => rfl

def settingsIn (mark : String) (t : FileTree) (dir : Path) : Except Failure Config :=
  ((Config.discover (disk mark) dir).run.run t).1

theorem reads_discover (mark : String) (t : FileTree) (dir : Path) :
    Reads t (Config.discover (disk mark) dir) (settingsIn mark t dir) :=
  Prod.ext rfl (discover_tree mark t dir)

def resolveIn (mark : String) (t : FileTree) (s : Settings) (specifier : String) (file : Option Path)
    (fromImport : Bool) : Except Failure Outcome := do
  let (containing, dir) ← containing s file
  let config ← settingsIn mark t s.cwd
  let engine ← engine config dir
  match (engine.importers.canonicalizeFrom containing (asLoaded engine dir specifier) fromImport).eval t.view with
  | .ambiguous specifier candidates => throw (.ambiguous specifier candidates)
  | .found u => pure (resolved s { specifier, containing, fromImport, location := some u })
  | .absent => pure (resolved s { specifier, containing, fromImport, location := none })

def loadIn (mark : String) (t : FileTree) (s : Settings) (file : Path) (entry : Option Path) :
    Except Failure Loaded := do
  let location ← located (s.cwd.absolutize file)
  let config ← settingsIn mark t s.cwd
  let engine ← engine (withEntry s config entry) (directoryOf s (s.cwd.absolutize file))
  match (engine.rebaser.load location).eval t.view with
  | none => throw (.unreadable location)
  | some loaded => pure loaded

def graphIn (mark : String) (t : FileTree) (s : Settings) (entry : Path) : Except Failure Outcome := do
  let location ← located (s.cwd.absolutize entry)
  let config ← settingsIn mark t s.cwd
  let engine ← engine { config with entry := some (s.cwd.absolutize entry) } s.cwd
  let g ← (Graph.walk engine.importers sheetLimit location).eval t.view
  pure (.printed (s.present g.document g.lines))

def checkIn (s : Settings) (root : Path) (found : List Checked × DirectoryCache) : Outcome :=
  let report : CheckReport := { root, entries := found.1, cachedDirectories := found.2.size }
  { exit := if report.isOk then 0 else 1
    output := s.present report.document report.lines
    complaint := "" }

variable (mark) (t) (s : Settings)

theorem reads_resolve (specifier : String) (file : Option Path) (fromImport : Bool) :
    Reads t (runResolve (disk mark) s specifier file fromImport) (resolveIn mark t s specifier file fromImport) := by
  refine (reads_except _).bind fun found => (reads_discover mark t s.cwd).bind fun config =>
    (reads_except _).bind fun e => reads_ask mark _ fun c => ?_
  dsimp only
  cases (e.importers.canonicalizeFrom found.1 (asLoaded e found.2 specifier) fromImport).eval t.view with
  | ambiguous specifier candidates => exact reads_throw _
  | found u => exact reads_pure _
  | absent => exact reads_pure _

theorem reads_load (file : Path) (entry : Option Path) :
    Reads t (loadSheet (disk mark) s file entry) (loadIn mark t s file entry) := by
  refine (reads_except _).bind fun location => (reads_discover mark t s.cwd).bind fun config =>
    (reads_except _).bind fun e => reads_ask mark _ fun c => ?_
  dsimp only
  cases (e.rebaser.load location).eval t.view with
  | none => exact reads_throw _
  | some loaded => exact reads_pure _

theorem reads_graph (entry : Path) : Reads t (runGraph (disk mark) s entry) (graphIn mark t s entry) := by
  refine (reads_except _).bind fun location => (reads_discover mark t s.cwd).bind fun config =>
    (reads_except _).bind fun e => reads_ask mark _ fun c => ?_
  dsimp only
  cases (Graph.walk e.importers sheetLimit location).eval t.view with
  | error e => exact reads_throw _
  | ok g => exact reads_pure _

theorem reads_check (dir : Option Path) {config : Config} {v : Except Failure (List Checked × DirectoryCache)}
    (settings : settingsIn mark t s.cwd = .ok config)
    (checked : Reads t (checkEntries (disk mark) config .empty
      (((t.survey (s.cwd.absolutize (dir.getD "."))).map (Entries.find (s.cwd.absolutize (dir.getD ".")))).getD [])) v) :
    Reads t (runCheck (disk mark) s dir) (v.map (checkIn s (s.cwd.absolutize (dir.getD ".")))) := by
  have discovered := reads_discover mark t s.cwd
  rw [settings] at discovered
  refine (run_bind_ok discovered).trans ((run_bind_ok rfl).trans ?_)
  cases v with
  | error e => exact run_bind_error checked
  | ok found => exact run_bind_ok checked

end Command

end StylesheetImports
