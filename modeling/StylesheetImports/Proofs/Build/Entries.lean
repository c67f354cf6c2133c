import Mathlib.Data.List.TakeWhile
import StylesheetImports.Build.Entries
import StylesheetImports.Proofs.Storage.Descendants
import StylesheetImports.Proofs.Storage.Following
import StylesheetImports.Proofs.Text.Utf8

set_option autoImplicit false

namespace StylesheetImports

theorem Utf8.head?_encode {c : Char} (ascii : c.toNat < 0x80) (text : List Char) :
    (encode text).head? = some (UInt8.ofNat c.toNat) ↔ text.head? = some c := by
  cases text with
  | nil => simp
  | cons d text =>
    rw [encode_cons, List.head?_cons, Option.some.injEq]
    constructor
    next =>
      intro first
      have mem : UInt8.ofNat c.toNat ∈ String.utf8EncodeChar d := by
        have some : String.utf8EncodeChar d ≠ [] := by simp
        rw [List.head?_append_of_ne_nil _ some] at first
        exact List.mem_of_mem_head? first
      have low : (UInt8.ofNat c.toNat).toNat = c.toNat := by simp; omega
      exact Char.toNat_inj.mp ((eq_of_mem_utf8EncodeChar mem (by omega)).trans low)
    next =>
      rintro rfl
      have byte := encode_singleton_ascii ascii
      simp only [encode, List.flatMap_cons, List.flatMap_nil, List.append_nil] at byte
      rw [byte]
      rfl

theorem Path.extension?_eq_some {p : Path} {name e : Bytes} (named : p.fileName? = some name) (plain : dot ∉ e) :
    p.extension? = some e ↔ ∃ stem, stem ≠ [] ∧ name = stem ++ dot :: e := by
  have whole := List.takeWhile_append_dropWhile (p := (· ≠ dot)) (l := name.reverse)
  rw [extension?, named, Option.bind_some]
  dsimp only
  constructor
  next =>
    intro found
    cases after : name.reverse.dropWhile (· ≠ dot) with
    | nil => rw [after] at found; cases found
    | cons first more =>
      cases more with
      | nil => rw [after] at found; cases found
      | cons second more =>
        rw [after] at found whole
        obtain rfl : first = dot := by
          have stop := List.head?_dropWhile_not (· ≠ dot) name.reverse
          rw [after] at stop
          simpa using stop
        refine ⟨(second :: more).reverse, by simp, ?_⟩
        calc name = (name.reverse.takeWhile (· ≠ dot) ++ dot :: second :: more).reverse := by
              rw [whole, List.reverse_reverse]
          _ = (second :: more).reverse ++ dot :: e := by
              rw [← Option.some.inj found]
              simp
  next =>
    rintro ⟨stem, some, rfl⟩
    have clear : ∀ b ∈ e.reverse, decide (b ≠ dot) = true := by
      intro b mem
      simpa using fun same : b = dot => plain (same ▸ List.mem_reverse.mp mem)
    have reversed : (stem ++ dot :: e).reverse = e.reverse ++ dot :: stem.reverse := by simp
    rw [reversed, List.dropWhile_append_of_pos clear, List.takeWhile_append_of_pos clear]
    obtain ⟨last, before, split⟩ := List.exists_cons_of_ne_nil (List.reverse_ne_nil_iff.mpr some)
    simp [split]

namespace Entries

/-- A directory that is left out with all that is in it: one of installed packages, or one with a dot in front. -/
def Ignored (name : Bytes) : Prop :=
  name = Utf8.encode "node_modules".toList ∨ name.head? = some 46

/-- The name of a stylesheet that stands for itself: a name with `.scss` or `.sass` behind it and no `_` in front. -/
def IsEntryName (name : Bytes) : Prop :=
  (∃ stem, stem ≠ [] ∧
    (name = stem ++ Utf8.encode ".scss".toList ∨ name = stem ++ Utf8.encode ".sass".toList)) ∧ name.head? ≠ some 95

variable {root : Path} {name : Bytes} {names : List Bytes}

theorem enters_iff (text : ∃ text, name = Utf8.encode text) : enters name = true ↔ ¬Ignored name := by
  obtain ⟨text, rfl⟩ := text
  have hidden : (Utf8.encode text).head? = some 46 ↔ text.head? = some '.' :=
    Utf8.head?_encode (c := '.') (by decide) text
  have installed : Utf8.encode text = Utf8.encode "node_modules".toList ↔ text = "node_modules".toList :=
    ⟨Utf8.encode_injective, congrArg _⟩
  rw [enters, Utf8.decode?_encode, Ignored, hidden, installed]
  simp only [Bool.not_eq_true', Bool.or_eq_false_iff, decide_eq_false_iff_not, not_or]

theorem components_pathBelow (root : Path) (named : ∀ name ∈ names, IsName name) :
    (pathBelow root names).components = root.components ++ names.map .name := by
  induction names generalizing root with
  | nil => simp [pathBelow]
  | cons name names ih =>
    obtain ⟨first, later⟩ := List.forall_mem_cons.mp named
    change (pathBelow (root.join { bytes := name }) names).components = _
    rw [ih _ later, Path.components_join_name root first, List.append_assoc]
    rfl

theorem isEntry_iff {p : Path} (named : p.fileName? = some name) (text : ∃ text, name = Utf8.encode text) :
    isEntry p = true ↔ IsEntryName name := by
  obtain ⟨text, rfl⟩ := text
  have partially : isPartial p = true ↔ (Utf8.encode text).head? = some 95 := by
    rw [isPartial, Path.fileNameText?, named]
    have first := Utf8.head?_encode (c := '_') (by decide) text
    rw [Option.bind_some, Utf8.decode?_encode, Option.map_some]
    cases text with
    | nil => simp
    | cons c text => simpa [@eq_comm _ '_' c] using first.symm
  have plain : dot ∉ Utf8.encode "scss".toList ∧ dot ∉ Utf8.encode "sass".toList := by decide
  rw [isEntry, Bool.and_eq_true, Bool.or_eq_true, Path.hasExtension, Path.hasExtension, decide_eq_true_eq,
    decide_eq_true_eq, Path.extension?_eq_some named plain.1, Path.extension?_eq_some named plain.2,
    Bool.not_eq_true', ← Bool.not_eq_true, partially, IsEntryName, ← exists_or]
  simp only [← and_or_left]
  rfl

theorem isEntry_pathBelow (root : Path) {dirs : List Bytes}
    (named : ∀ n ∈ dirs ++ [name], IsName n ∧ ∃ text, n = Utf8.encode text) :
    isEntry (pathBelow root (dirs ++ [name])) = true ↔ IsEntryName name := by
  refine isEntry_iff ?_ (named name (by simp)).2
  rw [Path.fileName?, components_pathBelow root fun n mem => (named n mem).1]
  simp

theorem shown_file_iff {n : Node} (proper : n.Proper) {dirs : List Bytes} {content : Bytes} :
    n.Shown enters (dirs ++ [name]) (.file content) ↔
      n.get? (dirs ++ [name]) = some (.file content) ∧ ∀ dir ∈ dirs, ¬Ignored dir := by
  constructor
  next =>
    rintro ⟨-, there, entered, -⟩
    rw [List.dropLast_concat] at entered
    have text (dir : Bytes) (mem : dir ∈ dirs) := (proper.named there dir (List.mem_append_left _ mem)).2
    exact ⟨there, fun dir mem => (enters_iff (text dir mem)).mp (entered dir mem)⟩
  next =>
    rintro ⟨there, free⟩
    have text (dir : Bytes) (mem : dir ∈ dirs) := (proper.named there dir (List.mem_append_left _ mem)).2
    refine ⟨by simp, there, ?_, nofun⟩
    rw [List.dropLast_concat]
    exact fun dir mem => (enters_iff (text dir mem)).mpr (free dir mem)

/-- Below a directory exactly those files are found that have the name of an entry and no ignored directory between
them and the one that is searched, each once and in ascending order of the names that lead to it. -/
theorem find_exact (t : FileTree) (root : Path) {place : List Bytes} {entries : List (Bytes × Node)}
    (there : t.locate true root = .ok (place, .directory entries)) (proper : (Node.directory entries).Proper) :
    ∃ places : List (List Bytes), ((t.survey root).map (find root)).getD [] = places.map (pathBelow root) ∧
      places.Pairwise (· < ·) ∧
      ∀ names, names ∈ places ↔ ∃ dirs name content, names = dirs ++ [name] ∧
        t.root.get? (place ++ names) = some (.file content) ∧ IsEntryName name ∧ ∀ dir ∈ dirs, ¬Ignored dir := by
  have held : t.root.get? place = some (.directory entries) := (FileTree.locate_eq_ok.mp there).2.get?_of_leads
  have below (names : List Bytes) : t.root.get? (place ++ names) = (Node.directory entries).get? names := by
    rw [Node.get?_append, held, Option.bind_some]
  let told := (Node.directory entries).descendants enters []
  let kept := told.filter fun one => one.2.isFile && isEntry (pathBelow root one.1)
  have found : find root (.directory entries) = (kept.map (·.1)).map (pathBelow root) := by
    change ((told.filter fun one => one.2.isFile).map fun one => pathBelow root one.1).filter isEntry = _
    rw [List.filter_map, List.filter_filter, List.map_map]
    exact congrArg (List.map _) (List.filter_congr fun _ _ => Bool.and_comm _ _)
  refine ⟨kept.map (·.1), ?_, ?_, fun names => ?_⟩
  next => rw [FileTree.survey_of_locate there, Option.map_some, Option.getD_some, found]
  next => exact List.pairwise_map.mpr ((Node.pairwise_descendants _ proper []).filter _)
  next =>
    have told_iff (node : Node) : (names, node) ∈ told ↔ (Node.directory entries).Shown enters names node := by
      rw [Node.mem_descendants _ proper]
      simp
    simp only [below]
    constructor
    next =>
      intro listed
      obtain ⟨⟨_, node⟩, mem, rfl⟩ := List.mem_map.mp listed
      obtain ⟨mem, test⟩ := List.mem_filter.mp mem
      obtain ⟨file, entry⟩ := Bool.and_eq_true_iff.mp test
      have shown := (told_iff node).mp mem
      obtain ⟨dirs, name, rfl⟩ := (List.eq_nil_or_concat _).resolve_left shown.some
      rw [List.concat_eq_append] at *
      cases node with
      | file content =>
        obtain ⟨here, free⟩ := (shown_file_iff proper).mp shown
        exact ⟨dirs, name, content, rfl, here, (isEntry_pathBelow root (proper.named here)).mp entry, free⟩
      | device | link | directory => cases file
    next =>
      rintro ⟨dirs, name, content, rfl, here, entry, free⟩
      have shown := (shown_file_iff proper).mpr ⟨here, free⟩
      have named := (isEntry_pathBelow root (proper.named here)).mpr entry
      exact List.mem_map.mpr ⟨(_, .file content), List.mem_filter.mpr ⟨(told_iff _).mpr shown, named⟩, rfl⟩

-- A hidden file is an entry; a file with `_` in front and what is in `node_modules` are not.
theorem find_exact_hidden :
    let hidden := Utf8.encode ".c.scss".toList
    let partly := Utf8.encode "_p.scss".toList
    let installed := Utf8.encode "node_modules".toList
    let inside := Utf8.encode "x.scss".toList
    let top := Utf8.encode "w".toList
    let dir := [(hidden, .file []), (partly, .file []), (installed, .directory [(inside, .file [])])]
    let t : FileTree := ⟨.directory [(top, .directory dir)], []⟩
    t.locate true "/w" = .ok ([top], .directory dir) ∧ (Node.directory dir).Proper ∧
      ∃ places : List (List Bytes), ((t.survey "/w").map (find "/w")).getD [] = places.map (pathBelow "/w") ∧
        [hidden] ∈ places ∧ [partly] ∉ places ∧ [installed, inside] ∉ places := by
  intro hidden partly installed inside top dir t
  have there : t.locate true "/w" = .ok ([top], .directory dir) := by
    have written : segments (Path.ofString "/w").bytes = [[], top] := by decide +kernel
    have origin : t.origin "/w" = [] := by decide +kernel
    rw [FileTree.locate_eq_ok, written, origin]
    refine ⟨FileTree.check_eq_ok.mpr (by decide +kernel), .idle rfl rfl (.enter rfl ?_ rfl (by simp) (.stop rfl))⟩
    exact ⟨by decide +kernel, by decide +kernel⟩
  have proper : (Node.directory dir).Proper := by
    have plain (content : Bytes) : (Node.file content).Proper := .of_leaf (by simp)
    have below : (Node.directory [(inside, .file [])]).Proper := by
      refine .of_directory (by simp) (List.forall_mem_singleton.mpr ⟨?_, _, rfl⟩) (List.forall_mem_singleton.mpr (plain []))
      exact ⟨by decide +kernel, by decide +kernel⟩
    refine .of_directory (by decide +kernel) (List.forall_mem_cons.mpr ⟨⟨?_, _, rfl⟩, List.forall_mem_cons.mpr
      ⟨⟨?_, _, rfl⟩, List.forall_mem_singleton.mpr ⟨?_, _, rfl⟩⟩⟩) (List.forall_mem_cons.mpr ⟨plain [],
      List.forall_mem_cons.mpr ⟨plain [], List.forall_mem_singleton.mpr below⟩⟩) <;>
      exact ⟨by decide +kernel, by decide +kernel⟩
  obtain ⟨places, found, -, exactly⟩ := find_exact t "/w" there proper
  refine ⟨there, proper, places, found, ?_, fun mem => ?_, fun mem => ?_⟩
  · exact (exactly _).mpr ⟨[], hidden, [], rfl, rfl, ⟨⟨Utf8.encode ".c".toList, by decide +kernel, .inl rfl⟩,
      by decide +kernel⟩, nofun⟩
  · obtain ⟨dirs, name, content, split, -, ⟨-, first⟩, -⟩ := (exactly _).mp mem
    have last : name = partly := by simpa using (congrArg List.getLast? split).symm
    exact first (last ▸ by decide +kernel)
  · obtain ⟨dirs, name, content, split, -, -, free⟩ := (exactly _).mp mem
    have before : dirs = [installed] := by simpa using (congrArg List.dropLast split).symm
    exact free installed (by simp [before]) (.inl rfl)

end Entries

end StylesheetImports
