import StylesheetImports.Proofs.Command.Agreement

set_option autoImplicit false

namespace StylesheetImports

open FileTree Query

def Config.paths (config : Config) : List Path :=
  config.entry.toList ++ config.loadPaths

namespace Command

variable {mark : String} {t : FileTree} {place : List Bytes}

structure Enters (t : FileTree) (dir : Path) (place : List Bytes) : Prop where
  linkless : Linkless t.root
  there : ∃ entries, t.locate true dir = .ok (place, .directory entries)
  home : ∃ entries, t.locate true (pathOf place) = .ok (place, .directory entries)

theorem enters_of_absolute {dir : Path} (linkless : Linkless t.root) (absolute : dir.isAbsolute = true)
    {entries : List (Bytes × Node)} (there : t.locate true dir = .ok (place, .directory entries)) : Enters t dir place := by
  have home := locate_normalize linkless absolute there
  rw [(normalize_of_locate linkless absolute there).2] at home
  exact ⟨linkless, ⟨entries, there⟩, entries, home⟩

namespace Enters

variable {dir p : Path} (enters : Enters t dir place)

include enters

theorem normal (absolute : dir.isAbsolute = true) : dir.normalize = pathOf place := by
  obtain ⟨entries, there⟩ := enters.there
  exact (normalize_of_locate enters.linkless absolute there).2

theorem normalize_pathOf : (pathOf place).normalize = pathOf place := by
  obtain ⟨entries, home⟩ := enters.home
  exact (normalize_of_locate enters.linkless (isAbsolute_pathOf place) home).2

theorem root : ∃ entries, t.root = .directory entries := by
  obtain ⟨entries, home⟩ := enters.home
  obtain ⟨-, leads⟩ := locate_eq_ok.mp home
  rw [FileTree.origin, if_pos (isAbsolute_pathOf place)] at leads
  rcases leads.nil_or_directory with ⟨none, -⟩ | ⟨entries, root⟩
  next => exact absurd none (pieces_ne_nil _ _)
  next => exact ⟨entries, Option.some.inj root⟩

theorem absolutize (fixed : (dir.absolutize p).isAbsolute = true) : (pathOf place).absolutize p = dir.absolutize p := by
  rcases Path.absolute_of_absolutize fixed with absolute | absolute
  next =>
    have same : (pathOf place).normalize = dir.normalize := enters.normalize_pathOf.trans (enters.normal absolute).symm
    exact Path.normalize_join_congr same p
  next => rw [Path.absolutize_of_absolute absolute, Path.absolutize_of_absolute absolute]

end Enters

theorem isName_fileName : IsName (Path.ofString Config.fileName).bytes := by
  refine ⟨?_, ?_⟩ <;> decide +kernel

/-- The settings of a directory say the same under both of its paths: the file that holds them can be named by both, and
the paths in it are absolute as they are read from the first. -/
structure Settled (t : FileTree) (dir home : Path) : Prop where
  fits : t.isFile (dir.join Config.fileName) = true ∨ t.isFile (home.join Config.fileName) = true ->
    (dir.join Config.fileName).bytes.length < pathLimit ∧ (home.join Config.fileName).bytes.length < pathLimit
  paths : ∀ text config, asText (t.read (dir.join Config.fileName)) = .ok text -> Config.ofText text = .ok config ->
    ∀ p ∈ config.paths, (dir.absolutize p).isAbsolute = true

theorem exists_above {dir : Path} (absolute : dir.isAbsolute = true) :
    ∃ above, (dir.join Config.fileName).parent? = some above ∧ above.normalize = dir.normalize := by
  have joined := Path.isAbsolute_join absolute Config.fileName
  have steps := Path.components_join_name dir isName_fileName
  have named : (dir.join Config.fileName).fileName? = some (Path.ofString Config.fileName).bytes := by
    rw [Path.fileName?, steps, List.getLast?_concat]
  obtain ⟨above, parent⟩ := Path.exists_parent? joined named
  obtain ⟨-, c, split⟩ := Path.components_of_parent? joined parent
  rw [steps] at split
  refine ⟨above, parent, ?_⟩
  rw [Path.normalize, Path.normalize, (List.append_inj' split rfl).1]

theorem Enters.resolveFrom {dir : Path} (enters : Enters t dir place) {config : Config}
    (fixed : ∀ p ∈ config.paths, (dir.absolutize p).isAbsolute = true) :
    config.resolveFrom ((dir.join Config.fileName).parent?.getD ".") =
      config.resolveFrom (((pathOf place).join Config.fileName).parent?.getD ".") := by
  have alike (p : Path) (mem : p ∈ config.paths) : ((dir.join Config.fileName).parent?.getD ".").absolutize p =
      (((pathOf place).join Config.fileName).parent?.getD ".").absolutize p := by
    rcases Path.absolute_of_absolutize (fixed p mem) with absolute | absolute
    next =>
      obtain ⟨up, parent, normal⟩ := exists_above absolute
      obtain ⟨up', parent', normal'⟩ := exists_above (isAbsolute_pathOf place)
      have same : up.normalize = up'.normalize :=
        (normal.trans (enters.normal absolute)).trans (normal'.trans enters.normalize_pathOf).symm
      rw [parent, parent', Option.getD_some, Option.getD_some]
      exact Path.normalize_join_congr same p
    next => rw [Path.absolutize_of_absolute absolute, Path.absolutize_of_absolute absolute]
  have entry (p : Path) (given : config.entry = some p) := alike p (by simp [Config.paths, given])
  have loadPaths := List.map_congr_left fun p mem => alike p (List.mem_append_right _ mem)
  rw [Config.resolveFrom, Config.resolveFrom, loadPaths]
  cases given : config.entry with
  | none => rfl
  | some p => rw [Option.map_some, Option.map_some, entry p given]

theorem agree_load {file file' : Path} (same : (t.startingAt place).read file' = t.read file)
    (bases : ∀ text config, asText (t.read file) = .ok text -> Config.ofText text = .ok config ->
      config.resolveFrom (file.parent?.getD ".") = config.resolveFrom (file'.parent?.getD ".")) :
    Agree t place (fun a b t' => a = b ∧ t = t') (Config.load (disk mark) file) (Config.load (disk mark) file') := by
  have read : Agree t place (fun a b t' => a = b ∧ a = asText (t.read file) ∧ t = t')
      (liftM ((disk mark).readText file)) (liftM ((disk mark).readText file')) := by
    unfold Agree
    rw [run_liftM, run_liftM, run_readText, run_readText, same]
    exact .ok ⟨rfl, rfl, rfl⟩
  refine read.bind ?_
  rintro answer _ _ ⟨rfl, told, rfl⟩
  cases answer with
  | error e => exact agree_throw _ _ _
  | ok text =>
    dsimp only
    cases parsed : Config.ofText text with
    | error problem => exact agree_throw _ _ _
    | ok config => exact agree_pure ⟨bases text config told.symm parsed, rfl⟩

theorem agree_discover {dir : Path} (enters : Enters t dir place) (settled : Settled t dir (pathOf place)) :
    Agree t place (fun a b t' => a = b ∧ t = t') (Config.discover (disk mark) dir)
      (Config.discover (disk mark) (pathOf place)) := by
  obtain ⟨entries, there⟩ := enters.there
  obtain ⟨entries', home⟩ := enters.home
  have absolute := Path.isAbsolute_join (isAbsolute_pathOf place) Config.fileName
  obtain ⟨files, reads⟩ := join_congr enters.linkless there home isName_fileName (by decide +kernel) (by decide +kernel)
    settled.fits
  unfold Agree
  rw [run_discover, run_discover, isFile_startingAt absolute, ← files]
  split
  next file =>
    refine agree_load ?_ fun text config read parsed => enters.resolveFrom (settled.paths text config read parsed)
    rw [read_startingAt absolute, reads file]
  next => exact .ok ⟨rfl, rfl⟩

end Command

end StylesheetImports
