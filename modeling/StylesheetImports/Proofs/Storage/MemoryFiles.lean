import StylesheetImports.Proofs.Path.Child
import StylesheetImports.Storage.MemoryFiles

set_option autoImplicit false

namespace StylesheetImports

namespace Directory

theorem mem_files_ofListing {listing : List Listed} {name : String} (h : name ∈ (ofListing listing).files) :
    ∃ e ∈ listing, e.isFile = true ∧ e.name = name := by
  have inserted (names : List String) : name ∈ names.foldr insertName [] ↔ name ∈ names := by
    induction names with
    | nil => rfl
    | cons other names ih => rw [List.foldr_cons, mem_insertName, ih, List.mem_cons]
  obtain ⟨e, mem, same⟩ := List.mem_map.mp ((inserted _).mp h)
  exact ⟨e, (List.mem_filter.mp mem).1, (List.mem_filter.mp mem).2, same⟩

end Directory

namespace Path

structure IsKey (p : Path) : Prop where
  normal : p.normalize = p
  text : ∀ n, .name n ∈ p.components -> ∃ t, n = Utf8.encode t

theorem isKey_normalize (path : String) : (ofString path).normalize.IsKey := by
  refine ⟨normalize_normalize _, fun n mem => ?_⟩
  rw [components_normalize] at mem
  exact Component.exists_text_of_mem_stepsOf (mem_stepsOf_of_name (Component.mem_fold mem).1)

theorem IsKey.exists_text {p : Path} (key : p.IsKey) {name : Bytes} (named : p.fileName? = some name) :
    ∃ t, name = Utf8.encode t :=
  key.text name (List.mem_of_getLast? (fileName?_eq_some.mp named))

end Path

theorem lookup_remove {K V : Type} [DecidableEq K] (entries : List (K × V)) (key other : K) :
    (entries.filter fun (k, _) => k ≠ key).lookup other = if other = key then none else entries.lookup other := by
  split
  next same =>
    rw [List.lookup_eq_none_iff]
    intro entry mem
    have kept : entry.1 ≠ key := by simpa using (List.mem_filter.mp mem).2
    exact bne_iff_ne.mpr fun hit => kept (hit.symm.trans same)
  next apart =>
    induction entries with
    | nil => rfl
    | cons entry entries ih =>
      obtain ⟨k, v⟩ := entry
      by_cases removed : k = key
      · have later : (other == k) = false := beq_false_of_ne (removed ▸ apart)
        rw [List.filter_cons_of_neg (by simpa using removed), ih, List.lookup_cons, later]
      · rw [List.filter_cons_of_pos (by simpa using removed), List.lookup_cons, List.lookup_cons, ih]

theorem lookup_replace {K V : Type} [DecidableEq K] (entries : List (K × V)) (key other : K) (value : V) :
    ((key, value) :: entries.filter fun (k, _) => k ≠ key).lookup other =
      if other = key then some value else entries.lookup other := by
  rw [List.lookup_cons, lookup_remove]
  by_cases same : other = key
  · simp [same]
  · rw [if_neg same, if_neg same, beq_false_of_ne same]

namespace MemoryFiles

/-- Files that were made one after the other under paths that are text, and may have been read and listed. -/
inductive Made : MemoryFiles -> Prop
  | empty : Made .empty
  | addFile {m : MemoryFiles} (made : Made m) (path text : String) : Made (m.addFile path text)
  | addDirectory {m : MemoryFiles} (made : Made m) (path : String) : Made (m.addDirectory path)
  | removeFile {m : MemoryFiles} (made : Made m) (path : String) : Made (m.removeFile path).2
  | read {m : MemoryFiles} (made : Made m) (path : Path) : Made (m.read path).2
  | list {m : MemoryFiles} (made : Made m) (path : Path) : Made (m.list path).2

variable {m : MemoryFiles} {p dir : Path}

theorem text?_addFile (m : MemoryFiles) (p q : Path) (text : String) :
    (m.addFile p text).text? q = if q.normalize = p.normalize then some text else m.text? q := by
  rw [text?, text?, ← lookup_replace]
  simp only [addFile]
  cases p.normalize.parent? <;> rfl

theorem text?_removeFile (m : MemoryFiles) (p q : Path) :
    (m.removeFile p).2.text? q = if q.normalize = p.normalize then none else m.text? q :=
  lookup_remove m.files p.normalize q.normalize

theorem mem_directories_addDirectory : dir ∈ (m.addDirectory p).directories ↔
    dir ∈ m.directories ∨ dir ∈ lineage p.normalize := by
  by_cases there : dir ∈ m.directories <;> simp [addDirectory, there]

theorem mem_childNames_iff {paths : List Path} (keys : ∀ p ∈ paths, p.IsKey) {name : String} :
    name ∈ childNames dir paths ↔
      ∃ p ∈ paths, p.parent? = some dir ∧ p.fileName? = some (Utf8.encode name.toList) := by
  constructor
  · intro mem
    obtain ⟨bytes, among, rfl⟩ := List.mem_map.mp (List.mem_mergeSort.mp mem)
    obtain ⟨p, below, named⟩ := List.mem_filterMap.mp among
    obtain ⟨inPaths, parent⟩ := List.mem_filter.mp below
    obtain ⟨text, rfl⟩ := (keys p inPaths).exists_text named
    refine ⟨p, inPaths, by simpa using parent, ?_⟩
    rw [named, String.toList_ofList, Utf8.decodeLossy_encode]
  · rintro ⟨p, mem, parent, named⟩
    refine List.mem_mergeSort.mpr (List.mem_map.mpr ⟨_, List.mem_filterMap.mpr ⟨p, ?_, named⟩, ?_⟩)
    · exact List.mem_filter.mpr ⟨mem, by simpa using parent⟩
    · rw [Utf8.decodeLossy_encode, String.ofList_toList]

theorem isSome_text?_iff : (m.text? p).isSome = true ↔ p.normalize ∈ m.files.map (·.1) := by
  rw [text?, List.lookup_isSome_iff, List.mem_map]
  exact exists_congr fun entry => and_congr_right fun _ => beq_iff_eq.trans eq_comm

theorem listing?_eq_some {listing : List Listed} : m.listing? p = some listing ↔
    p.normalize ∈ m.directories ∧
      (childNames p.normalize m.directories).map (fun name => { name, isFile := false, isDirectory := true })
        ++ (childNames p.normalize (m.files.map (·.1))).map
          (fun name => { name, isFile := true, isDirectory := false }) = listing := by
  simp only [listing?]
  split
  next there => simp [List.contains_iff_mem.mp there]
  next gone => simp [show p.normalize ∉ m.directories by simpa using gone]

theorem isSome_listing?_iff : (m.listing? p).isSome = true ↔ p.normalize ∈ m.directories := by
  rw [Option.isSome_iff_exists]
  simp [listing?_eq_some]

end MemoryFiles

end StylesheetImports
