import StylesheetImports.Proofs.Command.Run
import StylesheetImports.Proofs.Path.Child
import StylesheetImports.Proofs.Storage.Following

set_option autoImplicit false

namespace StylesheetImports

namespace Entries

theorem isAbsolute_pathBelow {root : Path} (absolute : root.isAbsolute = true) (names : List Bytes) :
    (pathBelow root names).isAbsolute = true := by
  induction names generalizing root with
  | nil => exact absolute
  | cons name names ih => exact ih (Path.isAbsolute_join absolute _)

/-- An entry that can be walked: it has a location, and a directory to rebase onto. -/
structure Walkable (entry : Path) : Prop where
  absolute : entry.isAbsolute = true
  named : isEntry entry = true

theorem walkable_of_mem_find {root : Path} (absolute : root.isAbsolute = true) {node : Node} {entry : Path}
    (mem : entry ∈ find root node) : Walkable entry := by
  unfold find at mem
  split at mem
  next =>
    obtain ⟨here, named⟩ := List.mem_filter.mp mem
    rw [List.mem_singleton.mp here] at named ⊢
    exact ⟨absolute, named⟩
  next =>
    obtain ⟨below, named⟩ := List.mem_filter.mp mem
    obtain ⟨⟨names, _⟩, _, rfl⟩ := List.mem_map.mp below
    exact ⟨isAbsolute_pathBelow absolute names, named⟩

theorem Walkable.exists_parent? {entry : Path} (h : Walkable entry) : ∃ dir, entry.parent? = some dir := by
  obtain ⟨name, named⟩ : ∃ name, entry.fileName? = some name := by
    have named := h.named
    cases fileName : entry.fileName? with
    | some name => exact ⟨name, rfl⟩
    | none => simp [isEntry, Path.hasExtension, Path.extension?, fileName] at named
  exact Path.exists_parent? h.absolute named

end Entries

namespace Command

variable {m : Type -> Type} [Monad m]

-- The graph of one entry, by an engine of its own and with nothing remembered.
def walkAlone (disk : Disk m) (config : Config) (entry : Path) : ExceptT Failure m Graph := do
  let location ← located entry
  let engine ← Engine.build { config with entry := some entry } none none
  let (answer, _) ← disk.ask .empty (Graph.walk engine.importers sheetLimit location)
  answer

/-- The graph of one entry of a tree, or why there is none. -/
def aloneOn (mark : String) (t : FileTree) (config : Config) (entry : Path) : Except Failure Graph :=
  ((walkAlone (FileTree.disk mark) config entry).run.run t).1

theorem checkEntry_eq (mark : String) (t : FileTree) (config : Config) {entry : Path}
    (walkable : Entries.Walkable entry) {c : DirectoryCache} (faithful : c.Faithful t.view) :
    ∃ filled, (checkEntry (FileTree.disk mark) config c entry).run.run t =
        (.ok (Checked.ofGraph entry (aloneOn mark t config entry), filled), t) ∧
      filled.Faithful t.view := by
  obtain ⟨dir, parent⟩ := walkable.exists_parent?
  obtain ⟨location, made⟩ : ∃ location, located entry = .ok location :=
    ⟨_, by rw [located, Url.ofPath?, if_pos walkable.absolute]⟩
  obtain ⟨engine, built⟩ : ∃ engine, Engine.build { config with entry := some entry } none none = .ok engine :=
    ⟨_, by simp only [Engine.build, Config.entryDir?, Option.bind_some, parent, Option.none_or]; rfl⟩
  have opened : Reads t (liftM (located entry)) (.ok location) := made ▸ reads_except _
  have started : Reads t (liftM (Engine.build { config with entry := some entry } none none)) (.ok engine) :=
    built ▸ reads_except _
  let graph := Graph.walk engine.importers sheetLimit location
  have fresh : Reads t (walkAlone (FileTree.disk mark) config entry) (graph.eval t.view) :=
    (run_bind_ok opened).trans ((run_bind_ok started).trans (reads_ask mark graph fun _ => reads_except _))
  have alone : aloneOn mark t config entry = graph.eval t.view := congrArg Prod.fst fresh
  obtain ⟨filled, asked, kept⟩ := FileTree.ask_view mark t graph faithful
  refine ⟨filled, ?_, kept⟩
  have walked : (liftM ((FileTree.disk mark).ask c graph) : ExceptT Failure (StateM FileTree) _).run.run t =
      (.ok (graph.eval t.view, filled), t) := by
    rw [run_liftM, asked]
  rw [alone]
  exact (run_bind_ok opened).trans ((run_bind_ok started).trans (run_bind_ok walked))

theorem checkEntries_eq (mark : String) (t : FileTree) (config : Config) {entries : List Path}
    (walkable : ∀ entry ∈ entries, Entries.Walkable entry) {c : DirectoryCache} (faithful : c.Faithful t.view) :
    ∃ filled, (checkEntries (FileTree.disk mark) config c entries).run.run t =
        (.ok (entries.map fun entry => Checked.ofGraph entry (aloneOn mark t config entry), filled), t) ∧
      filled.Faithful t.view := by
  induction entries generalizing c with
  | nil => exact ⟨c, rfl, faithful⟩
  | cons entry entries ih =>
    obtain ⟨first, others⟩ := List.forall_mem_cons.mp walkable
    obtain ⟨filled, checked, still⟩ := checkEntry_eq mark t config first faithful
    obtain ⟨later, more, kept⟩ := ih others still
    refine ⟨later, ?_, kept⟩
    exact (run_bind_ok checked).trans (run_bind_ok more)

theorem isNone_error_ofGraph (entry : Path) (answer : Except Failure Graph) :
    (Checked.ofGraph entry answer).error.isNone = true ↔ ∃ graph, answer = .ok graph := by
  cases answer <;> simp [Checked.ofGraph]

/-- What a checked entry has to tell: of a graph, its stylesheets and what is missing in it; of a failure, the text. -/
structure Tells (c : Checked) (entry : Path) (answer : Except Failure Graph) : Prop where
  entry : c.entry = entry
  graph : ∀ g, answer = .ok g -> c.stylesheets = g.sheets.length ∧ c.missing = g.missing ∧ c.error = none
  failure : ∀ e, answer = .error e -> c.stylesheets = 0 ∧ c.missing = [] ∧ c.error = some e.message

theorem tells_ofGraph (entry : Path) (answer : Except Failure Graph) :
    Tells (Checked.ofGraph entry answer) entry answer := by
  cases answer with
  | ok g => exact ⟨rfl, by rintro _ ⟨rfl⟩; exact ⟨rfl, rfl, rfl⟩, nofun⟩
  | error e => exact ⟨rfl, nofun, by rintro _ ⟨rfl⟩; exact ⟨rfl, rfl, rfl⟩⟩

theorem tells_map (entries : List Path) (answer : Path -> Except Failure Graph) :
    List.Forall₂ (fun entry c => Tells c entry (answer entry)) entries
      (entries.map fun entry => Checked.ofGraph entry (answer entry)) := by
  induction entries with
  | nil => exact .nil
  | cons entry entries ih => exact .cons (tells_ofGraph entry _) ih

/-- The report on a directory tells of each entry what its graph comes to when it is walked alone, and so does any
other run over entries that share a cache, in whatever order; the tree stays as it is. -/
theorem runCheck_alone (mark : String) (t : FileTree) (s : Settings) (dir : Option Path) {config : Config}
    (settings : ((Config.discover (FileTree.disk mark) s.cwd).run.run t).1 = .ok config)
    (absolute : (s.cwd.absolutize (dir.getD ".")).isAbsolute = true) :
    let root := s.cwd.absolutize (dir.getD ".")
    let found := ((t.survey root).map (Entries.find root)).getD []
    (∃ report : CheckReport,
      (runCheck (FileTree.disk mark) s dir).run.run t =
          (.ok {
            exit := if report.isOk then 0 else 1
            output := s.present report.document report.lines
            complaint := "" }, t) ∧
        report.root = root ∧
        List.Forall₂ (fun entry c => Tells c entry (aloneOn mark t config entry)) found report.entries ∧
        (report.isOk = true ↔ ∀ entry ∈ found, ∃ graph, aloneOn mark t config entry = .ok graph)) ∧
      ∀ (config : Config) (entries : List Path), (∀ entry ∈ entries, Entries.Walkable entry) ->
        ∃ checked cache, (checkEntries (FileTree.disk mark) config .empty entries).run.run t = (.ok (checked, cache), t) ∧
          List.Forall₂ (fun entry c => Tells c entry (aloneOn mark t config entry)) entries checked := by
  intro root found
  constructor
  next =>
    have walkable : ∀ entry ∈ found, Entries.Walkable entry := by
      intro entry mem
      cases surveyed : t.survey root with
      | none => simp [found, surveyed] at mem
      | some node =>
        simp only [found, surveyed, Option.map_some, Option.getD_some] at mem
        exact Entries.walkable_of_mem_find absolute mem
    obtain ⟨cache, checked, _⟩ :=
      checkEntries_eq mark t config walkable (DirectoryCache.faithful_empty t.view)
    let report : CheckReport :=
      { root
        entries := found.map fun entry => Checked.ofGraph entry (aloneOn mark t config entry)
        cachedDirectories := cache.size }
    refine ⟨report, reads_check mark t s dir settings checked, rfl, tells_map found _, ?_⟩
    simp only [report, CheckReport.isOk, List.all_map, List.all_eq_true, Function.comp_apply, isNone_error_ofGraph]
  next =>
    intro config entries walkable
    obtain ⟨cache, checked, _⟩ := checkEntries_eq mark t config walkable (DirectoryCache.faithful_empty t.view)
    exact ⟨_, cache, checked, tells_map entries _⟩

-- Two entries, one of which imports the other.
def twoSheets : FileTree :=
  { root := .directory [
      (Utf8.encode "a.scss".toList, .file (Utf8.encode "@use 'b'".toList)),
      (Utf8.encode "b.scss".toList, .file [])]
    start := [] }

theorem runCheck_alone_twoSheets :
    ((Config.discover (FileTree.disk "0") "/").run.run twoSheets).1 = .ok Config.default ∧
      (Path.absolutize "/" ".").isAbsolute = true ∧
      ∃ report : CheckReport,
        List.Forall₂ (fun entry c => Tells c entry (aloneOn "0" twoSheets Config.default entry))
          ["/a.scss", "/b.scss"] report.entries ∧
        (runCheck (FileTree.disk "0") { cwd := "/", json := false, verbosity := 0 } none).run.run twoSheets =
          (.ok { exit := if report.isOk then 0 else 1, output := report.lines, complaint := "" }, twoSheets) := by
  have noSettings : twoSheets.isFile (Path.join "/" Config.fileName) = false := by
    have names : segments (Path.join "/" Config.fileName).bytes = [[], Utf8.encode Config.fileName.toList] := by
      decide +kernel
    have origin : twoSheets.origin (Path.join "/" Config.fileName) = [] := by decide +kernel
    rw [FileTree.isFile, FileTree.node, FileTree.locate, names, origin, FileTree.follow_idle rfl rfl rfl,
      FileTree.follow_missing rfl rfl (by decide +kernel) (by decide +kernel) (by decide +kernel)]
    decide +kernel
  have settings : ((Config.discover (FileTree.disk "0") "/").run.run twoSheets).1 = .ok Config.default := by
    rw [run_discover, noSettings]
    rfl
  have surveyed : twoSheets.survey "/" = some twoSheets.root := by
    have names : segments (Path.ofString "/").bytes = [[], []] := by decide +kernel
    have origin : twoSheets.origin "/" = [] := by decide +kernel
    rw [FileTree.survey, FileTree.locate, names, origin, FileTree.follow_idle rfl rfl rfl,
      FileTree.follow_idle rfl rfl rfl, FileTree.follow_nil rfl]
    rfl
  have root : Path.absolutize "/" "." = "/" := by decide +kernel
  have absolute : (Path.absolutize "/" ".").isAbsolute = true := by decide +kernel
  have found : Entries.find "/" twoSheets.root = ["/a.scss", "/b.scss"] := by decide +kernel
  obtain ⟨⟨report, ran, _, entries, _⟩, _⟩ :=
    runCheck_alone "0" twoSheets { cwd := "/", json := false, verbosity := 0 } none settings absolute
  refine ⟨settings, absolute, report, ?_, ran⟩
  simpa [root, surveyed, found] using entries

end Command

end StylesheetImports
