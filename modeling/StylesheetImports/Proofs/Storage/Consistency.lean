import Mathlib.Data.List.Nodup
import Mathlib.Data.String.Basic
import StylesheetImports.Proofs.Path.Parent
import StylesheetImports.Proofs.Storage.MemoryFiles
import StylesheetImports.Proofs.Text.Order

set_option autoImplicit false

namespace StylesheetImports

open Component

namespace MemoryFiles

variable {m : MemoryFiles} {p q dir : Path} {steps : List Component}

theorem bytes_of_mem_tail_inits (h : IsNormal steps) {before : List Component} (mem : before ∈ steps.inits.tail) :
    (Path.ofComponents before).bytes ≠ [] := by
  obtain ⟨some, first⟩ := Path.mem_tail_inits.mp mem
  exact Path.bytes_ofComponents_ne_nil (isNormal_of_front h first) some

theorem lineage_ofComponents (h : IsNormal steps) :
    lineage (Path.ofComponents steps) = (steps.inits.tail.map Path.ofComponents).reverse := by
  have named : ∀ dir ∈ (steps.inits.tail.map Path.ofComponents).reverse, decide (dir.bytes ≠ []) = true := by
    intro dir mem
    obtain ⟨before, first, rfl⟩ := List.mem_map.mp (List.mem_reverse.mp mem)
    exact decide_eq_true (bytes_of_mem_tail_inits h first)
  rw [lineage, Path.ancestors_ofComponents h, List.takeWhile_append_of_pos named]
  split <;> simp

theorem mem_lineage (h : IsNormal steps) : dir ∈ lineage (Path.ofComponents steps) ↔
    ∃ before, (before ≠ [] ∧ before <+: steps) ∧ Path.ofComponents before = dir := by
  rw [lineage_ofComponents h, List.mem_reverse, List.mem_map]
  simp only [Path.mem_tail_inits]

theorem mem_lineage_iff (normal : p.normalize = p) : dir ∈ lineage p ↔ dir ∈ p.ancestors ∧ dir.bytes ≠ [] := by
  obtain ⟨steps, h, rfl⟩ := Path.normalize_eq_self_iff.mp normal
  rw [lineage_ofComponents h, Path.ancestors_ofComponents h, List.mem_append]
  constructor
  · intro mem
    obtain ⟨before, first, rfl⟩ := List.mem_map.mp (List.mem_reverse.mp mem)
    exact ⟨.inl mem, bytes_of_mem_tail_inits h first⟩
  · rintro ⟨mem | top, some⟩
    · exact mem
    · split at top
      · exact absurd top List.not_mem_nil
      · exact absurd (congrArg Path.bytes (List.mem_singleton.mp top)) some

theorem nodup_lineage (normal : p.normalize = p) : (lineage p).Nodup := by
  obtain ⟨steps, h, rfl⟩ := Path.normalize_eq_self_iff.mp normal
  have distinct (l : List Component) : l.inits.Nodup := by
    induction l with
    | nil => simp
    | cons c l ih =>
      rw [List.inits_cons, List.nodup_cons]
      exact ⟨by simp, List.Nodup.map List.cons_injective ih⟩
  rw [lineage_ofComponents h, List.nodup_reverse]
  refine ((distinct steps).sublist (List.tail_sublist _)).map_on fun a mem b mem' same => ?_
  have normal {l : List Component} (mem : l ∈ steps.inits.tail) : IsNormal l :=
    isNormal_of_front h (Path.mem_tail_inits.mp mem).2
  exact (Path.ofComponents_inj (normal mem) (normal mem')).mp same

theorem exists_parent?_of_mem_lineage (normal : p.normalize = p) (mem : dir ∈ lineage p) (apart : dir ≠ p) :
    ∃ above, p.parent? = some above ∧ dir ∈ lineage above := by
  obtain ⟨steps, h, rfl⟩ := Path.normalize_eq_self_iff.mp normal
  obtain ⟨before, ⟨some, first⟩, rfl⟩ := (mem_lineage h).mp mem
  rcases List.eq_nil_or_concat steps with rfl | ⟨front, c, rfl⟩
  · exact absurd (List.prefix_nil.mp first) some
  · rw [List.concat_eq_append] at *
    rcases List.prefix_concat_iff.mp first with rfl | first'
    · exact absurd rfl apart
    · have below : c ≠ .root := by
        rintro rfl
        exact some (List.prefix_nil.mp (h.eq_nil_of_root ▸ first'))
      have h' := isNormal_of_front h (List.prefix_append front [c])
      exact ⟨_, Path.parent?_of_isNormal h below, (mem_lineage h').mpr ⟨before, ⟨some, first'⟩, rfl⟩⟩

theorem mem_lineage_of_parent? (normal : p.normalize = p) (parent : p.parent? = some dir) (some : dir.bytes ≠ []) :
    dir ∈ lineage p ∧ dir ≠ p := by
  obtain ⟨steps, c, h, rfl, rfl⟩ := Path.exists_of_parent? normal parent
  have first : steps <+: steps ++ [c] := List.prefix_append _ _
  refine ⟨(mem_lineage h).mpr ⟨steps, ⟨?_, first⟩, rfl⟩, fun same => ?_⟩
  · rintro rfl
    exact some rfl
  · have whole := (Path.ofComponents_inj (isNormal_of_front h first) h).mp same
    simp at whole

def keys (m : MemoryFiles) : List Path :=
  m.files.map (·.1) ++ m.directories

/-- No key is there twice, and the directories above each are there. -/
structure Consistent (m : MemoryFiles) : Prop where
  key : ∀ p ∈ m.keys, p.IsKey
  above : ∀ p ∈ m.keys, ∀ dir ∈ lineage p, dir ≠ p -> dir ∈ m.directories
  files : (m.files.map (·.1)).Nodup
  directories : m.directories.Nodup

theorem isKey_of_front {before : List Component} (h : IsNormal steps) (key : (Path.ofComponents steps).IsKey)
    (first : before <+: steps) : (Path.ofComponents before).IsKey := by
  have h' := isNormal_of_front h first
  refine ⟨Path.normalize_eq_self_iff.mpr ⟨before, h', rfl⟩, fun n mem => key.text n ?_⟩
  rw [Path.components_ofComponents h'] at mem
  rw [Path.components_ofComponents h]
  exact first.subset mem

theorem isKey_of_mem_lineage (key : p.IsKey) (mem : dir ∈ lineage p) : dir.IsKey := by
  obtain ⟨steps, h, rfl⟩ := Path.normalize_eq_self_iff.mp key.normal
  obtain ⟨before, ⟨_, first⟩, rfl⟩ := (mem_lineage h).mp mem
  exact isKey_of_front h key first

theorem isKey_parent? (key : p.IsKey) (parent : p.parent? = some dir) : dir.IsKey := by
  obtain ⟨steps, c, h, rfl, rfl⟩ := Path.exists_of_parent? key.normal parent
  exact isKey_of_front h key (List.prefix_append _ _)

theorem lineage_subset (normal : p.normalize = p) (mem : dir ∈ lineage p) : lineage dir ⊆ lineage p := by
  obtain ⟨steps, h, rfl⟩ := Path.normalize_eq_self_iff.mp normal
  obtain ⟨before, ⟨_, first⟩, rfl⟩ := (mem_lineage h).mp mem
  intro above mem'
  obtain ⟨front, ⟨some, first'⟩, rfl⟩ := (mem_lineage (isNormal_of_front h first)).mp mem'
  exact (mem_lineage h).mpr ⟨front, ⟨some, first'.trans first⟩, rfl⟩

theorem Consistent.addDirectory (c : m.Consistent) (key : p.normalize.IsKey) : (m.addDirectory p).Consistent := by
  have cases_mem : ∀ q ∈ (m.addDirectory p).keys, q ∈ m.keys ∨ q ∈ lineage p.normalize := by
    intro q mem
    rcases List.mem_append.mp mem with file | directory
    · exact .inl (List.mem_append_left _ file)
    · exact (mem_directories_addDirectory.mp directory).imp_left (List.mem_append_right _)
  refine ⟨fun q mem => ?_, fun q mem dir above apart => mem_directories_addDirectory.mpr ?_, c.files, ?_⟩
  · rcases cases_mem q mem with old | new
    · exact c.key q old
    · exact isKey_of_mem_lineage key new
  · rcases cases_mem q mem with old | new
    · exact .inl (c.above q old dir above apart)
    · exact .inr (lineage_subset key.normal new above)
  · refine List.nodup_append.mpr ⟨c.directories, (nodup_lineage key.normal).filter _, ?_⟩
    rintro old mem new mem' rfl
    simp [mem] at mem'

theorem Consistent.removeFile (c : m.Consistent) (p : Path) : (m.removeFile p).2.Consistent := by
  have kept : ((m.removeFile p).2.files).Sublist m.files := List.filter_sublist
  have old : ∀ q ∈ (m.removeFile p).2.keys, q ∈ m.keys := by
    intro q mem
    rcases List.mem_append.mp mem with file | directory
    · exact List.mem_append_left _ ((kept.map _).subset file)
    · exact List.mem_append_right _ directory
  exact ⟨fun q mem => c.key q (old q mem), fun q mem => c.above q (old q mem), c.files.sublist (kept.map _),
    c.directories⟩

theorem not_mem_removeFile (m : MemoryFiles) (p : Path) : p.normalize ∉ (m.removeFile p).2.files.map (·.1) := by
  simp [MemoryFiles.removeFile]

theorem Consistent.cons (c : m.Consistent) (key : p.IsKey) (new : p ∉ m.files.map (·.1))
    (above : ∀ dir ∈ lineage p, dir ≠ p -> dir ∈ m.directories) (text : String) :
    Consistent { m with files := (p, text) :: m.files } := by
  have cases_mem : ∀ q ∈ keys { m with files := (p, text) :: m.files }, q = p ∨ q ∈ m.keys :=
    fun _ => List.mem_cons.mp
  refine ⟨fun q mem => ?_, fun q mem dir => ?_, List.nodup_cons.mpr ⟨new, c.files⟩, c.directories⟩
  · rcases cases_mem q mem with rfl | old
    · exact key
    · exact c.key q old
  · rcases cases_mem q mem with rfl | old
    · exact above dir
    · exact c.above q old dir

theorem Consistent.addFile (c : m.Consistent) (key : p.normalize.IsKey) (text : String) :
    (m.addFile p text).Consistent := by
  -- The file of that name is taken out before the new one goes in.
  simp only [MemoryFiles.addFile]
  cases parent : p.normalize.parent? with
  | none =>
    refine (c.removeFile p).cons key (not_mem_removeFile m p) (fun dir mem apart => ?_) text
    obtain ⟨above, some, _⟩ := exists_parent?_of_mem_lineage key.normal mem apart
    rw [parent] at some
    cases some
  | some above =>
    have normal : above.normalize = above := (isKey_parent? key parent).normal
    have whole := c.addDirectory (normal.symm ▸ isKey_parent? key parent : above.normalize.IsKey)
    refine (whole.removeFile p).cons key (not_mem_removeFile _ p) (fun dir mem apart => ?_) text
    obtain ⟨above', some, mem'⟩ := exists_parent?_of_mem_lineage key.normal mem apart
    have same : above' = above.normalize := by
      rw [normal]
      exact Option.some.inj (some.symm.trans parent)
    exact mem_directories_addDirectory.mpr (.inr (same ▸ mem'))

theorem Made.consistent (made : m.Made) : m.Consistent := by
  induction made with
  | empty => exact ⟨List.forall_mem_nil _, List.forall_mem_nil _, .nil, .nil⟩
  | addFile made path text ih => exact ih.addFile (Path.isKey_normalize path) text
  | addDirectory made path ih => exact ih.addDirectory (Path.isKey_normalize path)
  | removeFile made path ih => exact ih.removeFile path
  | read made path ih => exact ⟨ih.key, ih.above, ih.files, ih.directories⟩
  | list made path ih => exact ⟨ih.key, ih.above, ih.files, ih.directories⟩

/-- The names are those below the directory, each once and in the order of their bytes. -/
structure NamesChildren (dir : Path) (paths : List Path) (names : List String) : Prop where
  exact : ∀ name : String, name ∈ names ↔
    ∃ p ∈ paths, p.parent? = some dir ∧ p.fileName? = some (Utf8.encode name.toList)
  ascending : names.Pairwise fun a b => Utf8.encode a.toList < Utf8.encode b.toList

theorem namesChildren {paths : List Path} (keys : ∀ p ∈ paths, p.IsKey) (nodup : paths.Nodup) :
    NamesChildren dir paths (childNames dir paths) := by
  refine ⟨fun name => mem_childNames_iff keys, ?_⟩
  have sorted : (childNames dir paths).Pairwise fun a b => decide (a <= b) = true := by
    refine List.pairwise_mergeSort (fun a b c => ?_) (fun a b => ?_) _
    · simpa using String.le_trans
    · simpa using String.le_total a b
  -- Paths with one parent have different names, and no two texts have the same bytes.
  have distinct : (childNames dir paths).Nodup := by
    rw [childNames, (List.mergeSort_perm _ _).nodup_iff, List.Nodup, List.pairwise_map, List.pairwise_filterMap]
    refine (nodup.filter _).imp_of_mem fun {p q} below below' apart name named name' named' same => apart ?_
    obtain ⟨mem, parent⟩ := List.mem_filter.mp below
    obtain ⟨mem', parent'⟩ := List.mem_filter.mp below'
    obtain ⟨text, rfl⟩ := (keys p mem).exists_text named
    obtain ⟨text', rfl⟩ := (keys q mem').exists_text named'
    rw [Utf8.decodeLossy_encode, Utf8.decodeLossy_encode, String.ofList_inj] at same
    exact Path.eq_of_parent?_eq (keys p mem).normal (keys q mem').normal (by simpa using parent) (by simpa using parent')
      named (same ▸ named')
  refine (sorted.and distinct).imp fun {a b} ⟨le, apart⟩ => Utf8.encode_lt_iff.mpr (String.lt_iff_toList_lt.mp ?_)
  exact Std.lt_of_le_of_ne (of_decide_eq_true le) apart

/-- Whether a directory can be listed and has an entry of a kind with a name. -/
def Reports (m : MemoryFiles) (dir : Path) (kind : Listed -> Bool) (name : Bytes) : Prop :=
  ∃ listing, (m.list dir).1 = some listing ∧ ∃ e ∈ listing, kind e = true ∧ Utf8.encode e.name.toList = name

theorem Consistent.child_iff (c : m.Consistent) {paths : List Path} (kind : paths ⊆ m.keys) {name : Bytes}
    (normal : p.normalize = p) (parent : p.parent? = some dir) (named : p.fileName? = some name)
    (some : dir.bytes ≠ []) : p ∈ paths ↔
      dir ∈ m.directories ∧ ∃ text ∈ childNames dir paths, Utf8.encode text.toList = name := by
  have keys : ∀ q ∈ paths, q.IsKey := fun q mem => c.key q (kind mem)
  constructor
  · intro mem
    obtain ⟨above, apart⟩ := mem_lineage_of_parent? normal parent some
    obtain ⟨text, rfl⟩ := (keys p mem).exists_text named
    refine ⟨c.above p (kind mem) dir above apart, String.ofList text, ?_, by rw [String.toList_ofList]⟩
    exact (mem_childNames_iff keys).mpr ⟨p, mem, parent, by rw [named, String.toList_ofList]⟩
  · rintro ⟨_, text, mem, rfl⟩
    obtain ⟨q, mem', parent', named'⟩ := (mem_childNames_iff keys).mp mem
    rwa [Path.eq_of_parent?_eq normal (keys q mem').normal parent parent' named named']

theorem reports_file_iff (normal : dir.normalize = dir) {name : Bytes} : m.Reports dir (·.isFile) name ↔
    dir ∈ m.directories ∧ ∃ text ∈ childNames dir (m.files.map (·.1)), Utf8.encode text.toList = name := by
  simp [Reports, list, listing?_eq_some, normal, or_and_right, exists_or]

theorem reports_directory_iff (normal : dir.normalize = dir) {name : Bytes} : m.Reports dir (·.isDirectory) name ↔
    dir ∈ m.directories ∧ ∃ text ∈ childNames dir m.directories, Utf8.encode text.toList = name := by
  simp [Reports, list, listing?_eq_some, normal, or_and_right, exists_or]

/-- Of files that were made under paths that are text, each key is in normal form and the directories above it are
there. A file can be read, and a directory listed, exactly when the directory above it reports its name as one. A
listing has the directories and then the files, each child once and in the order of the bytes. What is put in can be
read or listed, and what is removed cannot be read. -/
theorem read_iff_reported (made : m.Made) :
    (∀ p ∈ m.keys, p.normalize = p) ∧
      (∀ p ∈ m.keys, ∀ dir ∈ p.ancestors, dir ≠ p -> dir.bytes ≠ [] -> dir ∈ m.directories) ∧
      (∀ (p dir : Path) (name : Bytes), p.normalize.parent? = some dir -> p.normalize.fileName? = some name ->
        dir.bytes ≠ [] ->
          ((m.read p).1.isSome = true ↔ m.Reports dir (·.isFile) name) ∧
            ((m.list p).1.isSome = true ↔ m.Reports dir (·.isDirectory) name)) ∧
      (∀ (p : Path) (listing : List Listed), (m.list p).1 = some listing ->
        ∃ directories files : List String,
          listing = directories.map (fun name => { name, isFile := false, isDirectory := true })
            ++ files.map (fun name => { name, isFile := true, isDirectory := false }) ∧
          NamesChildren p.normalize m.directories directories ∧
          NamesChildren p.normalize (m.files.map (·.1)) files) ∧
      ∀ p q : Path,
        (∀ text, ((m.addFile p text).read q).1 = if q.normalize = p.normalize then some text else (m.read q).1) ∧
          ((m.removeFile p).2.read q).1 = (if q.normalize = p.normalize then none else (m.read q).1) ∧
          (((m.addDirectory p).list q).1.isSome = true ↔ (m.list q).1.isSome = true ∨
            q.normalize ∈ p.normalize.ancestors ∧ q.normalize.bytes ≠ []) := by
  have c := made.consistent
  have isFile : m.files.map (·.1) ⊆ m.keys := List.subset_append_left _ _
  have isDirectory : m.directories ⊆ m.keys := List.subset_append_right _ _
  refine ⟨fun p mem => (c.key p mem).normal, fun p mem dir above apart some => ?_, fun p dir name parent named some => ?_,
    fun p listing listed => ?_, fun p q => ⟨text?_addFile m p q, text?_removeFile m p q, ?_⟩⟩
  · exact c.above p mem dir ((mem_lineage_iff (c.key p mem).normal).mpr ⟨above, some⟩) apart
  · have normal := Path.normalize_normalize p
    have above : dir.normalize = dir := Path.normalize_parent? normal parent
    constructor
    · rw [read, isSome_text?_iff, reports_file_iff above]
      exact c.child_iff isFile normal parent named some
    · rw [list, isSome_listing?_iff, reports_directory_iff above]
      exact c.child_iff isDirectory normal parent named some
  · obtain ⟨_, written⟩ := listing?_eq_some.mp listed
    exact ⟨_, _, written.symm, namesChildren (fun q mem => c.key q (isDirectory mem)) c.directories,
      namesChildren (fun q mem => c.key q (isFile mem)) c.files⟩
  · rw [list, list, isSome_listing?_iff, isSome_listing?_iff, mem_directories_addDirectory,
      mem_lineage_iff (Path.normalize_normalize p)]

-- One name is a file and a directory, another leads above the start, and a third is gone again.
def crowded : MemoryFiles :=
  (((((empty.addFile "a/b.scss" "b {}").addDirectory "./a/c/../b.scss").addFile "../x/y.scss" "y {}").addFile
    "a/gone.scss" "").removeFile "a//gone.scss").2

theorem read_iff_reported_crowded :
    crowded.Made ∧ crowded.directories = ["a", "a/b.scss", "../x", ".."] ∧
      (crowded.read "a/./b.scss").1 = some "b {}" ∧ (crowded.list "a/./b.scss").1.isSome = true ∧
      crowded.Reports "a" (·.isFile) (Utf8.encode "b.scss".toList) ∧
      crowded.Reports "a" (·.isDirectory) (Utf8.encode "b.scss".toList) ∧
      crowded.Reports "../x" (·.isFile) (Utf8.encode "y.scss".toList) ∧
      ¬ crowded.Reports "a" (·.isFile) (Utf8.encode "gone.scss".toList) := by
  have made : crowded.Made := ((((Made.empty.addFile _ _).addDirectory _).addFile _ _).addFile _ _).removeFile _
  obtain ⟨-, -, agrees, -, -⟩ := read_iff_reported made
  have text : (crowded.read "a/./b.scss").1 = some "b {}" := by decide +kernel
  have listed : (crowded.list "a/./b.scss").1.isSome = true := by
    rw [list, isSome_listing?_iff]
    decide +kernel
  have both := agrees "a/./b.scss" "a" (Utf8.encode "b.scss".toList) (by decide +kernel) (by decide +kernel)
    (by decide +kernel)
  have above := agrees "../x/y.scss" "../x" (Utf8.encode "y.scss".toList) (by decide +kernel) (by decide +kernel)
    (by decide +kernel)
  have gone := agrees "a/gone.scss" "a" (Utf8.encode "gone.scss".toList) (by decide +kernel) (by decide +kernel)
    (by decide +kernel)
  exact ⟨made, by decide +kernel, text, listed, both.1.mp (by rw [text]; rfl), both.2.mp listed,
    above.1.mp (by decide +kernel), fun reported => absurd (gone.1.mpr reported) (by decide +kernel)⟩

theorem Made.mem_of_listed (made : m.Made) (absolute : dir.isAbsolute = true) {listing : List Listed}
    (listed : m.listing? dir = some listing) {file : String} (mem : file ∈ (Directory.ofListing listing).files) :
    (dir.join file).normalize ∈ m.files.map (·.1) := by
  have key : ∀ p ∈ m.files.map (·.1), p.IsKey := fun p mem => made.consistent.key p (List.mem_append_left _ mem)
  obtain ⟨_, rfl⟩ := listing?_eq_some.mp listed
  obtain ⟨e, inListing, isFile, rfl⟩ := Directory.mem_files_ofListing mem
  have below : e.name ∈ childNames dir.normalize (m.files.map (·.1)) := by
    rcases List.mem_append.mp inListing with asDirectory | asFile
    · obtain ⟨_, _, rfl⟩ := List.mem_map.mp asDirectory
      cases isFile
    · obtain ⟨_, named, rfl⟩ := List.mem_map.mp asFile
      exact named
  obtain ⟨p, inFiles, parent, named⟩ := (mem_childNames_iff key).mp below
  have there : p.isAbsolute = true := Path.isAbsolute_of_parent? parent (Path.isAbsolute_normalize absolute)
  have named : p.fileName? = some (Path.ofString e.name).bytes := named
  rwa [← Path.normalize_normalize_join, Path.normalize_join_fileName there parent named, (key p inFiles).normal]

end MemoryFiles

end StylesheetImports
