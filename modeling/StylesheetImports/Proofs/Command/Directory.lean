import StylesheetImports.Proofs.Build.Load
import StylesheetImports.Proofs.Command.Line
import StylesheetImports.Proofs.Command.Settings

set_option autoImplicit false

namespace StylesheetImports

open FileTree Query

namespace Command

variable {mark : String} {t : FileTree} {place : List Bytes}

theorem engine_entry (config : Config) (entry a b : Path) :
    engine { config with entry := some entry } a = engine { config with entry := some entry } b :=
  rfl

theorem finder_of_build {config : Config} {dir : Option Path} {e : Engine} (built : Engine.build config dir none = .ok e) :
    e.finder = Package.installed config.packageMarks := by
  unfold Engine.build at built
  split at built
  · cases built
  · cases built
    rfl

theorem isFile_of_located {p : Path} {u : Url} (made : located p = .ok u) : u.isFile = true := by
  unfold located at made
  split at made
  next of =>
    cases made
    exact Url.isFile_of_ofPath? of
  next => cases made

theorem eq_root_of_parent? {p : Path} (absolute : p.isAbsolute = true) (normal : p.normalize = p)
    (none : p.parent? = none) : p = "/" := by
  obtain ⟨names, written, _, isName⟩ := Path.exists_names_of_normal absolute normal
  rcases List.eq_nil_or_concat names with rfl | ⟨before, last, rfl⟩
  next =>
    rw [written]
    decide +kernel
  next =>
    have segments : ∀ c ∈ before.map Component.name ++ [.name last], c.IsSegment := by
      simpa using Path.isSegment_of_mem_map isName
    simp [written, Path.parent?_ofComponents segments] at none

theorem directoryOf_eq {s : Settings} (cwd : Path) {file : Path} (fixed : (s.cwd.absolutize file).isAbsolute = true)
    (below : s.cwd.absolutize file ≠ "/" ∨ cwd = s.cwd) :
    directoryOf { s with cwd } (s.cwd.absolutize file) = directoryOf s (s.cwd.absolutize file) := by
  unfold directoryOf
  rcases below with below | same
  next =>
    cases parent : (s.cwd.absolutize file).parent? with
    | some dir => rfl
    | none => exact absurd (eq_root_of_parent? fixed (Path.normalize_absolutize _ _) parent) below
  next => rw [same]

theorem text_top {t : FileTree} {entries : List (Bytes × Node)} (root : t.root = .directory entries) :
    t.view.text "/" = none := by
  have cut : segments (Path.ofString "/").bytes = [[], []] := by decide +kernel
  have there : t.root.get? [] = some (.directory entries) := congrArg some root
  have located : t.locate true "/" = .ok ([], .directory entries) := by
    refine locate_eq_ok.mpr ⟨check_eq_ok.mpr (by decide +kernel), ?_⟩
    rw [cut, FileTree.origin, if_pos (by decide +kernel)]
    exact .idle there (by decide) (.idle there (by decide) (.stop there))
  have read : t.read "/" = .error .isDirectory := by
    rw [FileTree.read, FileTree.node, located]
    rfl
  simp only [FileTree.view, read]
  rfl

theorem exists_load_top (mark : String) {t : FileTree} {entries : List (Bytes × Node)} (root : t.root = .directory entries)
    {s : Settings} {file : Path} (top : s.cwd.absolutize file = "/") (entry : Option Path) :
    ∃ e, (loadSheet (disk mark) s file entry).run.run t = (.error e, t) := by
  have made : located "/" = .ok (Url.ofSegments [[]]) := by decide +kernel
  have place : (Url.ofSegments [[]]).toPath? = some (Path.ofString "/") := by decide +kernel
  have unread (e : Engine) : (e.rebaser.load (Url.ofSegments [[]])).eval t.view = none := by
    rw [eval_eq_answer, Rebaser.answer_load, place, Option.bind_some]
    exact congrArg (Option.map _) (text_top root)
  obtain ⟨e, failed⟩ : ∃ e, loadIn mark t s file entry = .error e := by
    unfold loadIn
    rw [top, made]
    cases settingsIn mark t s.cwd with
    | error e => exact ⟨e, rfl⟩
    | ok config =>
      cases built : engine (withEntry s config entry) (directoryOf s "/") with
      | error e => exact ⟨e, by simp only [Bind.bind, Except.bind, built]⟩
      | ok e => exact ⟨_, by simp only [Bind.bind, Except.bind, built, unread]; rfl⟩
  exact ⟨e, failed ▸ reads_load mark t s file entry⟩

/-- Nothing bears the name of the temporary file for the top of the tree, which is made where relative paths start. -/
def SparesTemporary (mark : String) (t : FileTree) : Prop :=
  ∀ slot, t.slot (Disk.temporary mark "/") = .ok slot -> t.inSlot? slot = none

theorem run_writeOutput_top {t : FileTree} (spares : SparesTemporary mark t) (content : String) :
    ∃ e, (writeOutput (disk mark) "/" content).run.run t = (.error e, t) := by
  have nameless : writtenName "/" = [] := by decide +kernel
  have alone : Path.parent? "/" = none := by decide +kernel
  obtain ⟨e, failed⟩ := run_replace_nameless mark nameless (Utf8.encode content.toList) spares
  have made : (liftM (createAbove (disk mark) "/") : ExceptT Failure (StateM FileTree) (Except FileFault Unit)).run.run t =
      (.ok (.ok ()), t) := by
    unfold createAbove
    rw [alone]
    rfl
  have refused : (liftM ((disk mark).replace "/" (Utf8.encode content.toList)) :
      ExceptT Failure (StateM FileTree) (Except FileFault Unit)).run.run t = (.ok (.error e), t) := by
    rw [run_liftM, failed]
  unfold writeOutput
  exact ⟨.io e.message, (run_bind_ok made).trans (run_bind_ok refused)⟩

theorem agree_writeOutput {file : Path} (absolute : file.isAbsolute = true) (normal : file.normalize = file) (content : String)
    (spares : file = "/" -> SparesTemporary mark t ∧ SparesTemporary mark (t.startingAt place)) :
    Agree t place (fun a b _ => a = b) (writeOutput (disk mark) file content) (writeOutput (disk mark) file content) := by
  cases parent : file.parent? with
  | none =>
    obtain rfl := eq_root_of_parent? absolute normal parent
    obtain ⟨spared, spared'⟩ := spares rfl
    exact agree_failed _ (run_writeOutput_top spared content) (run_writeOutput_top spared' content)
  | some dir =>
    have made : Startless (createAbove (disk mark) file) := by
      unfold createAbove
      rw [parent]
      have above : dir.isAbsolute = true := (Path.isAbsolute_parent? parent).trans absolute
      exact startless_createDirectories mark above
    unfold writeOutput
    refine (agree_startless made).bind ?_
    rintro made _ t' rfl
    cases made with
    | error e => exact agree_throw _ _ _
    | ok =>
      refine (agree_startless (startless_replace mark absolute parent _)).bind ?_
      rintro replaced _ t' rfl
      cases replaced with
      | error e => exact agree_throw _ _ _
      | ok => exact agree_pure rfl

section

variable {s : Settings} (enters : Enters t s.cwd place)

include enters

theorem containing_eq {file : Option Path} (fixed : (s.cwd.absolutize (file.getD ".")).isAbsolute = true)
    (top : ∀ p, file = some p -> s.cwd.absolutize p = "/" -> s.cwd = pathOf place) :
    containing { s with cwd := pathOf place } file = containing s file := by
  have alike := enters.absolutize fixed
  cases file with
  | none =>
    change (pathOf place).absolutize "." = s.cwd.absolutize "." at alike
    simp only [containing, alike]
  | some file =>
    change (pathOf place).absolutize file = s.cwd.absolutize file at alike
    have dirs : directoryOf { s with cwd := pathOf place } (s.cwd.absolutize file) = directoryOf s (s.cwd.absolutize file) := by
      refine directoryOf_eq _ fixed ?_
      by_cases same : s.cwd.absolutize file = "/"
      · exact .inr (top file rfl same).symm
      · exact .inl same
    simp only [containing, alike, dirs]

variable (settled : Settled t s.cwd (pathOf place))

include settled

theorem agree_runResolve (specifier : String) {file : Option Path} (fromImport : Bool)
    (fixed : (s.cwd.absolutize (file.getD ".")).isAbsolute = true)
    (top : ∀ p, file = some p -> s.cwd.absolutize p = "/" -> s.cwd = pathOf place) :
    Agree t place (fun a b _ => a = b) (runResolve (disk mark) s specifier file fromImport)
      (runResolve (disk mark) { s with cwd := pathOf place } specifier file fromImport) := by
  unfold runResolve
  rw [containing_eq enters fixed top]
  refine (agree_except _).bind ?_
  rintro ⟨containing, dir⟩ _ _ ⟨rfl, -, rfl⟩
  refine (agree_discover enters settled).bind ?_
  rintro config _ _ ⟨rfl, rfl⟩
  refine (agree_except _).bind ?_
  rintro e _ _ ⟨rfl, built, rfl⟩
  have steady : (e.importers.canonicalizeFrom containing (asLoaded e dir specifier) fromImport).Steady t.view
      (t.startingAt place).view False :=
    Engine.steady_canonicalizeFrom (rooted_startingAt t place) (finder_of_build built) nofun nofun fromImport
  refine (agree_ask steady (remembered_empty _ _ _)).bind ?_
  rintro ⟨answer, _⟩ ⟨_, _⟩ _ ⟨rfl, -⟩
  cases answer with
  | ambiguous => exact agree_throw _ _ _
  | found | absent => exact agree_pure rfl

theorem agree_loadSheet {file : Path} {entry : Option Path}
    (fixed : ∀ p ∈ file :: entry.toList, (s.cwd.absolutize p).isAbsolute = true) :
    Agree t place (fun a b t' => a = b ∧ t = t') (loadSheet (disk mark) s file entry)
      (loadSheet (disk mark) { s with cwd := pathOf place } file entry) := by
  have here := fixed file List.mem_cons_self
  have alike := enters.absolutize here
  by_cases top : s.cwd.absolutize file = "/"
  next =>
    obtain ⟨entries, root⟩ := enters.root
    let started : Settings := { s with cwd := pathOf place }
    have top' : started.cwd.absolutize file = "/" := alike.trans top
    have root' : (t.startingAt place).root = .directory entries := root
    exact agree_failed _ (exists_load_top mark root top entry) (exists_load_top mark root' top' entry)
  next =>
    unfold loadSheet
    dsimp only
    rw [alike, directoryOf_eq (pathOf place) here (.inl top)]
    refine (agree_except _).bind ?_
    rintro location _ _ ⟨rfl, -, rfl⟩
    refine (agree_discover enters settled).bind ?_
    rintro config _ _ ⟨rfl, rfl⟩
    have settings : withEntry { s with cwd := pathOf place } config entry = withEntry s config entry := by
      cases entry with
      | none => rfl
      | some entry => simp only [withEntry, enters.absolutize (fixed entry (by simp))]
    rw [settings]
    refine (agree_except _).bind ?_
    rintro e _ _ ⟨rfl, -, rfl⟩
    have steady : (e.rebaser.load location).Steady t.view (t.startingAt place).view False :=
      Rebaser.steady_load (rooted_startingAt t place) e.rebaser location
    refine (agree_ask steady (remembered_empty _ _ _)).bind ?_
    rintro ⟨answer, _⟩ ⟨_, _⟩ _ ⟨rfl, -, rfl⟩
    cases answer with
    | none => exact agree_throw _ _ _
    | some loaded => exact agree_pure ⟨rfl, rfl⟩

theorem agree_runLoad {file : Path} {entry output : Option Path}
    (fixed : ∀ p ∈ file :: (entry.toList ++ output.toList), (s.cwd.absolutize p).isAbsolute = true)
    (spares : ∀ out, output = some out -> s.cwd.absolutize out = "/" ->
      SparesTemporary mark t ∧ SparesTemporary mark (t.startingAt place)) :
    Agree t place (fun a b _ => a = b) (runLoad (disk mark) s file entry output)
      (runLoad (disk mark) { s with cwd := pathOf place } file entry output) := by
  refine (agree_loadSheet enters settled fun p mem => fixed p ?_).bind ?_
  · simp only [List.mem_cons, List.mem_append] at mem ⊢
    exact mem.imp_right .inl
  rintro loaded _ _ ⟨rfl, rfl⟩
  cases output with
  | none => exact agree_pure rfl
  | some out =>
    have written := fixed out (by simp)
    simp only [Option.map_some, enters.absolutize written]
    refine (agree_writeOutput written (Path.normalize_absolutize _ _) _ (spares out rfl)).bind ?_
    rintro _ _ _ rfl
    exact agree_pure rfl

theorem agree_runGraph {entry : Path} (fixed : (s.cwd.absolutize entry).isAbsolute = true) :
    Agree t place (fun a b _ => a = b) (runGraph (disk mark) s entry)
      (runGraph (disk mark) { s with cwd := pathOf place } entry) := by
  unfold runGraph
  dsimp only
  rw [enters.absolutize fixed]
  refine (agree_except _).bind ?_
  rintro location _ _ ⟨rfl, -, rfl⟩
  refine (agree_discover enters settled).bind ?_
  rintro config _ _ ⟨rfl, rfl⟩
  rw [engine_entry config _ (pathOf place) s.cwd]
  refine (agree_except _).bind ?_
  rintro e _ _ ⟨rfl, built, rfl⟩
  have steady : (Graph.walk e.importers sheetLimit location).Steady t.view (t.startingAt place).view False :=
    Engine.steady_walk (rooted_startingAt t place) (finder_of_build built) nofun _ nofun
  refine (agree_ask steady (remembered_empty _ _ _)).bind ?_
  rintro ⟨answer, _⟩ ⟨_, _⟩ _ ⟨rfl, -⟩
  cases answer with
  | error e => exact agree_throw _ _ _
  | ok g => exact agree_pure rfl

/-- The packed specifiers in what any entry leads to come from directories that are absolute paths. -/
def Unpacked (t : FileTree) (config : Config) : Prop :=
  ∀ entry e, Engine.build { config with entry := some entry } none none = .ok e -> e.rebaser.Anchors t.view

omit enters settled in
theorem agree_checkEntry {clean : Prop} {config : Config} (anchored : clean -> Unpacked t config) {c c' : DirectoryCache}
    (both : Remembered t place clean c c') (entry : Path) :
    Agree t place (fun a b t' => a.1 = b.1 ∧ Remembered t place clean a.2 b.2 ∧ t = t')
      (checkEntry (disk mark) config c entry) (checkEntry (disk mark) config c' entry) := by
  unfold checkEntry
  refine (agree_except _).bind ?_
  rintro location _ _ ⟨rfl, made, rfl⟩
  refine (agree_except _).bind ?_
  rintro e _ _ ⟨rfl, built, rfl⟩
  have steady : (Graph.walk e.importers sheetLimit location).Steady t.view (t.startingAt place).view clean :=
    Engine.steady_walk (rooted_startingAt t place) (finder_of_build built) (fun ok => anchored ok entry e built) _
      fun _ => isFile_of_located made
  refine (agree_ask steady both).bind ?_
  rintro ⟨answer, _⟩ ⟨_, _⟩ _ ⟨rfl, both, rfl⟩
  exact agree_pure ⟨rfl, both, rfl⟩

omit enters settled in
theorem agree_checkEntries {clean : Prop} {config : Config} (anchored : clean -> Unpacked t config) {c c' : DirectoryCache}
    (both : Remembered t place clean c c') (entries : List Path) :
    Agree t place (fun a b t' => a.1 = b.1 ∧ Remembered t place clean a.2 b.2 ∧ t = t')
      (checkEntries (disk mark) config c entries) (checkEntries (disk mark) config c' entries) := by
  induction entries generalizing c c' with
  | nil => exact agree_pure ⟨rfl, both, rfl⟩
  | cons entry entries ih =>
    rw [checkEntries, checkEntries]
    refine (agree_checkEntry anchored both entry).bind ?_
    rintro ⟨checked, _⟩ ⟨_, _⟩ _ ⟨rfl, both, rfl⟩
    refine (ih both).bind ?_
    rintro ⟨more, _⟩ ⟨_, _⟩ _ ⟨rfl, both, rfl⟩
    exact agree_pure ⟨rfl, both, rfl⟩

theorem agree_runCheck {dir : Option Path} (fixed : (s.cwd.absolutize (dir.getD ".")).isAbsolute = true)
    (anchored : s.json = true -> ∀ config, (Config.discover (disk mark) s.cwd).run.run t = (.ok config, t) ->
      Unpacked t config) :
    Agree t place (fun a b _ => a = b) (runCheck (disk mark) s dir)
      (runCheck (disk mark) { s with cwd := pathOf place } dir) := by
  unfold runCheck
  dsimp only
  rw [enters.absolutize fixed]
  refine (agree_discover enters settled).ran.bind ?_
  rintro config _ _ ⟨⟨rfl, rfl⟩, discovered⟩
  have surveyed : Agree t place (fun a b t' => a = b ∧ t = t')
      (liftM ((disk mark).survey (s.cwd.absolutize (dir.getD "."))))
      (liftM ((disk mark).survey (s.cwd.absolutize (dir.getD ".")))) := by
    have ran (t : FileTree) (p : Path) : ((disk mark).survey p).run t = (t.survey p, t) := rfl
    unfold Agree
    rw [run_liftM, run_liftM, ran, ran, survey_startingAt fixed]
    exact .ok ⟨rfl, rfl⟩
  refine surveyed.bind ?_
  rintro found _ _ ⟨rfl, rfl⟩
  refine (agree_checkEntries (fun json => anchored json config discovered) (remembered_empty _ _ _) _).bind ?_
  rintro ⟨entries, c⟩ ⟨_, c'⟩ _ ⟨rfl, both, rfl⟩
  refine agree_pure ?_
  by_cases json : s.json = true
  · rw [both.same json]
    rfl
  · simp [Settings.present, json, CheckReport.isOk, CheckReport.lines, CheckReport.failed]

end

def paths : Command -> List Path
  | .version => []
  | .resolve _ file _ => [file.getD "."]
  | .load file entry output => file :: (entry.toList ++ output.toList)
  | .graph entry => [entry]
  | .check dir => [dir.getD "."]

/-- What keeps a command from telling by which path it was told its directory: its own paths and those of its settings are
absolute as they are read from there, it names the top of the tree neither as where a specifier stands nor as its
output, and the stylesheets it counts directories for have no packed specifiers of a relative origin. -/
structure Unaware (mark : String) (t : FileTree) (place : List Bytes) (s : Settings) (command : Command) : Prop where
  paths : ∀ p ∈ command.paths, (s.cwd.absolutize p).isAbsolute = true
  settings : command ≠ .version -> Settled t s.cwd (pathOf place)
  top : ∀ specifier file fromImport, command = .resolve specifier (some file) fromImport ->
    s.cwd.absolutize file = "/" -> s.cwd = pathOf place
  output : ∀ file entry out, command = .load file entry (some out) ->
    s.cwd.absolutize out = "/" -> SparesTemporary mark t ∧ SparesTemporary mark (t.startingAt place)
  origins : ∀ dir, command = .check dir -> s.json = true -> ∀ config,
    (Config.discover (disk mark) s.cwd).run.run t = (.ok config, t) -> Unpacked t config

theorem agree_run {s : Settings} (enters : Enters t s.cwd place) {command : Command}
    (unaware : Unaware mark t place s command) :
    Agree t place (fun a b _ => a = b) (run (disk mark) s command)
      (run (disk mark) { s with cwd := pathOf place } command) := by
  have fixed := unaware.paths
  cases command with
  | version => exact agree_pure rfl
  | resolve specifier file fromImport =>
    refine agree_runResolve enters (unaware.settings nofun) specifier fromImport (fixed _ List.mem_cons_self) ?_
    intro containing same
    exact unaware.top specifier containing fromImport (same ▸ rfl)
  | load file entry output =>
    refine agree_runLoad enters (unaware.settings nofun) fixed ?_
    intro out same
    exact unaware.output file entry out (same ▸ rfl)
  | graph entry => exact agree_runGraph enters (unaware.settings nofun) (fixed _ List.mem_cons_self)
  | check dir =>
    exact agree_runCheck enters (unaware.settings nofun) (fixed _ List.mem_cons_self) (unaware.origins dir rfl)

def concluded : Except Failure Outcome -> Outcome
  | .ok outcome => outcome
  | .error e => .failed e.message

theorem run_invoke_at (mark : String) (i : Invocation) (dir : Path) (t : FileTree) :
    (invoke (disk mark) { i with cwd := some dir }).run t =
      let ended := (run (disk mark) { cwd := dir, json := i.json, verbosity := i.verbosity } i.command).run.run t
      (concluded ended.1, ended.2) := by
  dsimp only
  generalize ran : (run (disk mark) { cwd := dir, json := i.json, verbosity := i.verbosity } i.command).run.run t = ended
  obtain ⟨answer, t'⟩ := ended
  simp only [invoke, pure_bind, StateT.run_bind, ran]
  cases answer <;> rfl

theorem run_invoke_none (mark : String) {i : Invocation} (untold : i.cwd = none) (t : FileTree) :
    (invoke (disk mark) i).run t = (invoke (disk mark) { i with cwd := some (pathOf t.start) }).run t := by
  unfold invoke
  rw [untold]
  rfl

theorem Ends.concluded {x y : Except Failure Outcome × FileTree} (ends : Ends place (fun a b _ => a = b) x y) :
    (concluded x.1).exit = (concluded y.1).exit ∧ (concluded x.1).output = (concluded y.1).output ∧
      y.2 = x.2.startingAt place := by
  cases ends with
  | failed => exact ⟨rfl, rfl, rfl⟩
  | ok both =>
    subst both
    exact ⟨rfl, rfl, rfl⟩

theorem exists_text {t : FileTree} {p : Path} (file : t.isFile p = true) : ∃ text, t.view.text p = some text := by
  have read (t : FileTree) (p : Path) : t.view.text p =
      (t.read p).toOption.map fun bytes => String.ofList (Utf8.decodeLossy bytes) := rfl
  rw [isFile] at file
  rw [read, FileTree.read]
  cases there : t.node p with
  | error e =>
    rw [there] at file
    cases file
  | ok node =>
    rw [there] at file
    cases node with
    | file content => exact ⟨_, rfl⟩
    | device | link | directory => cases file

theorem exists_run_load {s : Settings} {file path : Path} {config : Config} {e : Engine} {location : Url}
    (made : located (s.cwd.absolutize file) = .ok location) (settings : settingsIn mark t s.cwd = .ok config)
    (built : engine config (directoryOf s (s.cwd.absolutize file)) = .ok e)
    (place : location.toPath? = some path) (there : t.isFile path = true) :
    ∃ output, (run (disk mark) s (.load file none none)).run.run t = (.ok (.printed output), t) := by
  obtain ⟨text, held⟩ := exists_text there
  have read : (e.rebaser.load location).eval t.view = some (e.rebaser.loaded location path text) := by
    rw [eval_eq_answer, Rebaser.answer_load, place, Option.bind_some]
    exact congrArg (Option.map _) held
  have loaded : loadIn mark t s file none = .ok (e.rebaser.loaded location path text) := by
    simp only [loadIn, withEntry, made, settings, built, read, Bind.bind, Except.bind]
    rfl
  exact ⟨_, run_bind_ok (loaded ▸ reads_load mark t s file none)⟩

theorem run_unlocated (mark : String) (t : FileTree) {s : Settings} {command : Command} {p : Path}
    (first : command.paths.head? = some p) (apart : ∀ dir, command ≠ .check dir)
    (nowhere : (s.cwd.absolutize p).isAbsolute = false) :
    (run (disk mark) s command).run.run t = (.error (.notAbsolute (s.cwd.absolutize p)), t) := by
  have unlocated : located (s.cwd.absolutize p) = .error (.notAbsolute (s.cwd.absolutize p)) := by
    rw [located, Url.ofPath?, if_neg (by simp [nowhere])]
  cases command with
  | version => cases first
  | check dir => exact absurd rfl (apart dir)
  | load file entry output =>
    cases first
    have failed : loadIn mark t s p entry = .error (.notAbsolute (s.cwd.absolutize p)) := by
      rw [loadIn, unlocated]
      rfl
    exact run_bind_error (failed ▸ reads_load mark t s p entry)
  | graph entry =>
    cases first
    have failed : graphIn mark t s p = .error (.notAbsolute (s.cwd.absolutize p)) := by
      rw [graphIn, unlocated]
      rfl
    exact failed ▸ reads_graph mark t s p
  | resolve specifier file fromImport =>
    cases first
    have uncontained : containing s file = .error (.notAbsolute (s.cwd.absolutize (file.getD "."))) := by
      cases file with
      | none =>
        change (s.cwd.absolutize ".").isAbsolute = false at nowhere
        simp [containing, Url.ofDirectory?, nowhere]
      | some file =>
        change located (s.cwd.absolutize file) = _ at unlocated
        simp only [containing, unlocated]
        rfl
    have failed : resolveIn mark t s specifier file fromImport =
        .error (.notAbsolute (s.cwd.absolutize (file.getD "."))) := by
      rw [resolveIn, uncontained]
      rfl
    exact failed ▸ reads_resolve mark t s specifier file fromImport

theorem run_check_unlocated {s : Settings} {dir : Option Path} {config : Config} {node : Node} {entry : Path}
    {entries : List Path} (settings : settingsIn mark t s.cwd = .ok config)
    (surveyed : t.survey (s.cwd.absolutize (dir.getD ".")) = some node)
    (found : Entries.find (s.cwd.absolutize (dir.getD ".")) node = entry :: entries) (nowhere : entry.isAbsolute = false) :
    (run (disk mark) s (.check dir)).run.run t = (.error (.notAbsolute entry), t) := by
  have unlocated : located entry = .error (.notAbsolute entry) := by
    rw [located, Url.ofPath?, if_neg (by simp [nowhere])]
  have failed : Reads t (checkEntries (disk mark) config .empty (((t.survey (s.cwd.absolutize (dir.getD "."))).map
      (Entries.find (s.cwd.absolutize (dir.getD ".")))).getD [])) (.error (.notAbsolute entry)) := by
    rw [surveyed, Option.map_some, Option.getD_some, found]
    unfold checkEntries checkEntry
    rw [unlocated]
    exact run_bind_error (run_bind_error rfl)
  exact reads_check mark t s dir settings failed

/-- To tell the program a directory is to start it there: it exits alike, prints the same and leaves the same tree, if
what it is asked comes to absolute paths and nothing in it depends on how the path of the directory is written. -/
theorem runLine_cwd (mark : String) {t : FileTree} {dir : String} (plain : Word.ofString dir = .plain) {place : List Bytes}
    (enters : Enters t (Path.ofString dir) place) {words : List String} (undirected : Undirected words)
    (unaware : ∀ i, ofLine words = .ok i ->
      Unaware mark t place { cwd := Path.ofString dir, json := i.json, verbosity := i.verbosity } i.command) :
    let told := (runLine (disk mark) ("--cwd" :: dir :: words)).run t
    let started := (runLine (disk mark) words).run (t.startingAt place)
    told.1.exit = started.1.exit ∧ told.1.output = started.1.output ∧ started.2 = told.2.startingAt place := by
  have some : dir ≠ "" := by
    rintro rfl
    obtain ⟨entries, there⟩ := enters.there
    exact (check_eq_ok.mp (locate_eq_ok.mp there).1).2.1 rfl
  unfold runLine
  rcases ofLine_within plain some undirected with ⟨stop, same, same'⟩ | ⟨i, untold, same, same'⟩
  next =>
    rw [same, same']
    exact ⟨rfl, rfl, rfl⟩
  next =>
    rw [same, same']
    dsimp only
    rw [run_invoke_none mark untold, run_invoke_at, run_invoke_at]
    exact (agree_run enters (unaware i same)).concluded

def below : List Bytes := [Utf8.encode "sub".toList]

def entriesBelow : List (Bytes × Node) := [(Utf8.encode "a.scss".toList, .file (Utf8.encode "a\x7b\x7d".toList))]

def sheetBelow : FileTree :=
  { root := .directory [(Utf8.encode "sub".toList, .directory entriesBelow)]
    start := [] }

theorem linkless_sheetBelow : Linkless sheetBelow.root := by
  refine linkless_directory fun entry mem => ?_
  rw [List.mem_singleton.mp mem]
  refine linkless_directory fun entry mem => ?_
  rw [List.mem_singleton.mp mem]
  exact linkless_leaf (by simp) (by simp)

theorem leads_below {here rest : List Bytes} {found : List Bytes × Node} (top : here = [])
    (more : Leads sheetBelow.root true linkLimit below rest found) :
    Leads sheetBelow.root true linkLimit here (Utf8.encode "sub".toList :: rest) found := by
  subst top
  have solid (target : Path) : Node.directory entriesBelow ≠ .link target := by simp
  exact .enter rfl ⟨by decide +kernel, by decide +kernel⟩ rfl solid more

theorem locate_below : sheetBelow.locate true "/sub" = .ok (below, .directory entriesBelow) := by
  have cut : segments (Path.ofString "/sub").bytes = [[], Utf8.encode "sub".toList] := by decide +kernel
  have origin : sheetBelow.origin "/sub" = [] := by decide +kernel
  refine locate_eq_ok.mpr ⟨check_eq_ok.mpr (by decide +kernel), ?_⟩
  rw [cut, origin]
  exact .idle rfl rfl (leads_below rfl (.stop rfl))

theorem toOption_node_below {name : Path} (isName : IsName name.bytes) (short : name.bytes.length ≤ nameLimit)
    (usable : FileTree.check (Path.join "/sub" name) = .ok ()) :
    ((sheetBelow.startingAt below).node (Path.join "/sub" name)).toOption = sheetBelow.root.get? (below ++ [name.bytes]) := by
  have absolute : (Path.ofString "/sub").isAbsolute = true := by decide +kernel
  rw [node_startingAt (Path.isAbsolute_join absolute name)]
  exact toOption_node_join linkless_sheetBelow locate_below isName short usable

theorem exit_started : ((runLine (disk "0") ["load", "a.scss"]).run (sheetBelow.startingAt below)).1.exit = 0 := by
  let t := sheetBelow.startingAt below
  let s : Settings := { cwd := pathOf below, json := false, verbosity := 0 }
  let location := Url.ofSegments ["sub".toList, "a.scss".toList]
  have line : ofLine ["load", "a.scss"] =
      .ok { cwd := none, json := false, verbosity := 0, command := .load "a.scss" none none } := rfl
  have home : s.cwd = "/sub" := by decide +kernel
  have made : located (s.cwd.absolutize "a.scss") = .ok location := by decide +kernel
  have settings : settingsIn "0" t s.cwd = .ok Config.default := by
    have missing : t.isFile (Path.join "/sub" Config.fileName) = false := by
      rw [isFile_eq, toOption_node_below isName_fileName (by decide +kernel) (check_eq_ok.mpr (by decide +kernel))]
      decide +kernel
    rw [settingsIn, run_discover, home, missing]
    rfl
  have there : t.isFile (Path.join "/sub" "a.scss") = true := by
    rw [isFile_eq, toOption_node_below ⟨by decide +kernel, by decide +kernel⟩ (by decide +kernel)
      (check_eq_ok.mpr (by decide +kernel))]
    decide +kernel
  obtain ⟨e, built⟩ : ∃ e, engine Config.default (directoryOf s (s.cwd.absolutize "a.scss")) = .ok e := ⟨_, rfl⟩
  have place : location.toPath? = some (Path.join "/sub" "a.scss") := by decide +kernel
  obtain ⟨output, ran⟩ := exists_run_load made settings built place there
  unfold runLine
  rw [line]
  dsimp only
  rw [run_invoke_none _ rfl, run_invoke_at]
  change (concluded ((run (disk "0") s (.load "a.scss" none none)).run.run t).1).exit = 0
  rw [ran]
  rfl

-- The directory under a path that is not normal.
theorem runLine_cwd_spelled :
    let told := (runLine (disk "0") ["--cwd", "/sub/../sub", "load", "a.scss"]).run sheetBelow
    let started := (runLine (disk "0") ["load", "a.scss"]).run (sheetBelow.startingAt below)
    Enters sheetBelow "/sub/../sub" below ∧ Undirected ["load", "a.scss"] ∧ told.1.exit = 0 ∧
      told.1.output = started.1.output ∧ started.2 = told.2.startingAt below := by
  have absolute : (Path.ofString "/sub/../sub").isAbsolute = true := by decide +kernel
  have there : sheetBelow.locate true "/sub/../sub" = .ok (below, .directory entriesBelow) := by
    have cut : segments (Path.ofString "/sub/../sub").bytes =
        [[], Utf8.encode "sub".toList, [dot, dot], Utf8.encode "sub".toList] := by decide +kernel
    have origin : sheetBelow.origin "/sub/../sub" = [] := by decide +kernel
    refine locate_eq_ok.mpr ⟨check_eq_ok.mpr (by decide +kernel), ?_⟩
    rw [cut, origin]
    exact .idle rfl rfl (leads_below rfl (.up rfl (leads_below rfl (.stop rfl))))
  have enters := enters_of_absolute linkless_sheetBelow absolute there
  have undirected : Undirected ["load", "a.scss"] := undirected_of_plain (by decide +kernel)
  have settled : Settled sheetBelow "/sub/../sub" (pathOf below) :=
    ⟨fun _ => by decide +kernel, fun _ _ _ _ p _ => Path.isAbsolute_absolutize absolute p⟩
  have unaware (i : Invocation) (line : ofLine ["load", "a.scss"] = .ok i) :
      Unaware "0" sheetBelow below { cwd := "/sub/../sub", json := i.json, verbosity := i.verbosity } i.command := by
    have read : ofLine ["load", "a.scss"] =
        .ok { cwd := none, json := false, verbosity := 0, command := .load "a.scss" none none } := rfl
    obtain rfl := Except.ok.inj (read.symm.trans line)
    exact ⟨fun p _ => Path.isAbsolute_absolutize absolute p, fun _ => settled, by simp, by simp, by simp⟩
  obtain ⟨exit, output, tree⟩ := runLine_cwd "0" (by decide +kernel) enters undirected unaware
  exact ⟨enters, undirected, exit.trans exit_started, output, tree⟩

-- A relative path of the directory is kept relative, and nothing is found there.
theorem runLine_cwd_relative :
    Enters sheetBelow "sub" below ∧ Undirected ["load", "a.scss"] ∧
      ((runLine (disk "0") ["--cwd", "sub", "load", "a.scss"]).run sheetBelow).1.exit = 1 ∧
      ((runLine (disk "0") ["load", "a.scss"]).run (sheetBelow.startingAt below)).1.exit = 0 := by
  have there : sheetBelow.locate true "sub" = .ok (below, .directory entriesBelow) := by
    have cut : segments (Path.ofString "sub").bytes = [Utf8.encode "sub".toList] := by decide +kernel
    have origin : sheetBelow.origin "sub" = [] := by decide +kernel
    refine locate_eq_ok.mpr ⟨check_eq_ok.mpr (by decide +kernel), ?_⟩
    rw [cut, origin]
    exact leads_below rfl (.stop rfl)
  have home : pathOf below = "/sub" := by decide +kernel
  refine ⟨⟨linkless_sheetBelow, ⟨_, there⟩, _, home ▸ locate_below⟩, undirected_of_plain (by decide +kernel), ?_, exit_started⟩
  let i : Invocation := { cwd := none, json := false, verbosity := 0, command := .load "a.scss" none none }
  let s : Settings := { cwd := "sub", json := false, verbosity := 0 }
  have line : ofLine ["--cwd", "sub", "load", "a.scss"] = .ok { i with cwd := some "sub" } := rfl
  have nowhere : (s.cwd.absolutize "a.scss").isAbsolute = false := by decide +kernel
  unfold runLine
  rw [line]
  dsimp only
  rw [run_invoke_at]
  change (concluded ((run (disk "0") s i.command).run.run sheetBelow).1).exit = 1
  rw [run_unlocated "0" sheetBelow rfl (by simp [i]) nowhere]
  rfl

end Command

end StylesheetImports
