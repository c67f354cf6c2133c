import StylesheetImports.Command.Run
import StylesheetImports.Proofs.Build.Web
import StylesheetImports.Proofs.Path.NormalForm
import StylesheetImports.Proofs.Resolve.Landing
import StylesheetImports.Proofs.Storage.Disk
import StylesheetImports.Proofs.Storage.Following
import StylesheetImports.Proofs.Storage.MemoryFiles
import StylesheetImports.Proofs.Text.Utf8
import StylesheetImports.Proofs.Url.File

set_option autoImplicit false

namespace StylesheetImports

def bytesUpTo : Nat -> List Bytes
  | 0 => [[]]
  | n + 1 => [] :: (List.range 256).flatMap fun byte => (bytesUpTo n).map (UInt8.ofNat byte :: ·)

theorem mem_bytesUpTo {bytes : Bytes} {n : Nat} (short : bytes.length <= n) : bytes ∈ bytesUpTo n := by
  induction n generalizing bytes with
  | zero => simp [bytesUpTo, List.length_eq_zero_iff.mp (Nat.le_zero.mp short)]
  | succ n ih =>
    cases bytes with
    | nil => exact List.mem_cons_self
    | cons byte bytes =>
      refine List.mem_cons_of_mem _ (List.mem_flatMap.mpr ⟨byte.toNat, List.mem_range.mpr byte.toNat_lt, ?_⟩)
      exact List.mem_map.mpr ⟨bytes, ih (Nat.le_of_succ_le_succ short), by simp⟩

theorem length_bytesUpTo (n : Nat) : (bytesUpTo n).length = Command.textCount n := by
  induction n with
  | zero => exact Command.textCount_zero.symm
  | succ n ih =>
    rw [Command.textCount_succ, ← ih]
    simp only [bytesUpTo, List.length_cons, List.length_flatMap, List.length_map, List.map_const', List.length_range,
      List.sum_replicate_nat]
    omega

theorem exists_locations (n : Nat) : ∃ locations : List Url, locations.length <= Command.textCount n ∧
    ∀ p u, p.bytes.length <= n -> Url.ofPath? p = some u -> u ∈ locations :=
  ⟨(bytesUpTo n).filterMap fun bytes => Url.ofPath? { bytes },
    length_bytesUpTo n ▸ List.length_filterMap_le _ _,
    fun p _ short location => List.mem_filterMap.mpr ⟨p.bytes, mem_bytesUpTo short, location⟩⟩

theorem Path.length_join_le (base p : Path) : (base.join p).bytes.length <= base.bytes.length + 1 + p.bytes.length := by
  unfold join
  split
  next => omega
  next =>
    split
    next => simp only [List.length_append]; omega
    next => simp only [List.length_append, List.length_cons]; omega

namespace FileTree

variable {t : FileTree}

def Short (t : FileTree) : Prop :=
  ∀ names node, t.root.get? names = some node -> ∀ name ∈ names, name.length <= nameLimit

theorem encode_of_listed? {dir : List Bytes} {name : Bytes} {node : Node} {e : Listed}
    (told : t.listed? dir name node = some e) : Utf8.encode e.name.toList = name := by
  unfold listed? at told
  split at told
  next => cases told
  next text decoded =>
    have named : e.name = String.ofList text := by
      dsimp only at told
      split at told
      next =>
        split at told
        next => cases told; rfl
        next => cases told
      next => cases told; rfl
    rw [named, String.toList_ofList]
    exact Utf8.encode_of_decode? decoded

theorem length_of_listed (short : t.Short) {dir : Path} {listing : List Listed} (listed : t.list dir = .ok listing)
    {e : Listed} (mem : e ∈ listing) :
    dir.bytes.length < pathLimit ∧ (Utf8.encode e.name.toList).length <= nameLimit := by
  cases located : t.locate true dir with
  | error fault =>
    rw [list, located] at listed
    cases listed
  | ok found =>
    obtain ⟨usable, leads⟩ := locate_eq_ok.mp located
    refine ⟨(check_eq_ok.mp usable).2.2, ?_⟩
    obtain ⟨place, node⟩ := found
    rw [list, located] at listed
    cases node with
    | directory entries =>
      obtain rfl := Except.ok.inj listed
      obtain ⟨⟨name, child⟩, entry, told⟩ := List.mem_filterMap.mp mem
      obtain ⟨held, found⟩ : ∃ held, entries.lookup name = some held :=
        Option.ne_none_iff_exists'.mp fun absent => Node.ne_of_lookup_eq_none absent entry rfl
      have there : t.root.get? (place ++ [name]) = some held := by
        rw [Node.get?_concat, leads.get?_of_leads]
        exact found
      rw [encode_of_listed? told]
      exact short _ _ there name (by simp)
    | file | device | link => cases listed

theorem exists_path_of_lists (short : t.Short) {u : Url} (lists : t.view.Lists u) :
    ∃ p : Path, p.bytes.length <= pathLimit + nameLimit ∧ Url.ofPath? p = some u := by
  obtain ⟨dir, d, file, absolute, known, mem, location, -⟩ := lists
  obtain ⟨listing, listed, rfl⟩ : ∃ listing, t.list dir.normalize = .ok listing ∧ Directory.ofListing listing = d := by
    have known : (t.list dir.normalize).toOption.map Directory.ofListing = some d := known
    obtain ⟨listing, listed, same⟩ := Option.map_eq_some_iff.mp known
    cases ended : t.list dir.normalize with
    | error e => rw [ended] at listed; cases listed
    | ok there => rw [ended] at listed; exact ⟨listing, congrArg Except.ok (Option.some.inj listed), same⟩
  obtain ⟨e, inListing, -, rfl⟩ := Directory.mem_files_ofListing mem
  obtain ⟨long, named⟩ := length_of_listed short listed inListing
  refine ⟨dir.normalize.join e.name, ?_, ?_⟩
  next =>
    have joined := Path.length_join_le dir.normalize e.name
    have spelled : (Path.ofString e.name).bytes = Utf8.encode e.name.toList := rfl
    rw [spelled] at joined
    omega
  next =>
    rw [← location]
    exact Url.ofPath?_congr (Path.isAbsolute_join (Path.isAbsolute_normalize absolute) _) (Path.isAbsolute_join absolute _)
      (Path.normalize_normalize_join dir e.name)

-- The web of stylesheets that a tree tells of.
def web (t : FileTree) (i : Importers) : Web :=
  { load := fun u => (i.load u).eval t.view
    answer := fun u spec => (i.canonicalizeFrom u spec.value spec.fromImport).eval t.view }

theorem told_web (t : FileTree) (i : Importers) : (t.web i).Told i t.view.answers where
  load := fun u => (Query.eval_eq_answer t.view (i.load u)).symm
  answer := fun u spec => (Query.eval_eq_answer t.view (i.canonicalizeFrom u spec.value spec.fromImport)).symm

end FileTree

namespace Command

/-- The limit on the stylesheets of a graph is never reached: a walk over a tree goes on just the same with any other
limit beyond it. -/
theorem walk_sheetLimit {t : FileTree} (short : t.Short) (e : Engine) (entry : Url) {limit : Nat}
    (more : sheetLimit <= limit) :
    (Graph.walk e.importers limit entry).eval t.view = (Graph.walk e.importers sheetLimit entry).eval t.view ∧
      ∀ count, (Graph.walk e.importers sheetLimit entry).eval t.view ≠ .error (.tooManySheets count) := by
  obtain ⟨locations, count, complete⟩ := exists_locations (FileTree.pathLimit + FileTree.nameLimit)
  have imports (u : Url) : (t.web e.importers).imports u ⊆ entry :: locations := by
    intro v imported
    obtain ⟨spec, -, found⟩ := Web.exists_of_mem_imports imported
    rw [← (FileTree.told_web t e.importers).answer] at found
    obtain ⟨p, length, location⟩ :=
      FileTree.exists_path_of_lists short (e.lands_canonicalizeFrom u spec.value spec.fromImport v found)
    exact List.mem_cons_of_mem entry (complete p v length location)
  have enough : [entry].length + (entry :: locations).length <= sheetLimit + [entry].length := by
    simp only [List.length_cons, List.length_nil, sheetLimit]
    omega
  -- The number is generalized before the walk is opened, so that nothing counts down from it.
  generalize sheetLimit = left at enough more ⊢
  rw [Query.eval_eq_answer, Query.eval_eq_answer, Graph.walk, Graph.walk]
  exact Web.visit_unlimited (FileTree.told_web t e.importers) imports entry (List.nodup_singleton entry)
    (fun u mem => List.mem_singleton.mp mem ▸ List.mem_cons_self) enough more

end Command

end StylesheetImports
