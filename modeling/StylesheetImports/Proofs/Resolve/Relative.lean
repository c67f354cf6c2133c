import StylesheetImports.Proofs.Resolve.Candidates

set_option autoImplicit false

namespace StylesheetImports

namespace View

-- A directory as the view has it; one that is not there is as good as an empty one.
def snapshot (view : View) (dir : Path) : Directory :=
  (view.directory dir).getD { files := [], directories := [] }

theorem exists_of_mem_snapshot {view : View} {dir : Path} {file : String} (h : file ∈ (view.snapshot dir).files) :
    ∃ d, view.directory dir = some d ∧ file ∈ d.files := by
  unfold snapshot at h
  cases there : view.directory dir with
  | none => simp [there] at h
  | some d => exact ⟨d, rfl, by simpa [there] using h⟩

def Lists (view : View) (u : Url) : Prop :=
  ∃ (dir : Path) (d : Directory) (file : String), dir.isAbsolute = true ∧ view.directory dir = some d ∧
    file ∈ d.files ∧ Url.ofPath? (dir.join file) = some u ∧ u.toPath? = some (dir.join file).normalize

end View

namespace Stem

theorem hits_empty (s : Stem) (fromImport : Bool) :
    s.hits { files := [], directories := [] } fromImport = [] := by
  have none (mark : List Char) :
      (s.candidates mark).filter (Directory.hasFile { files := [], directories := [] }) = [] := by
    simp [Directory.hasFile]
  cases fromImport <;> simp [hits, none]

def index : Stem := { name := "index".toList, extensions := known }

theorem ofName_index : ofName "index".toList = index := by decide

theorem isFileName_index : IsFileName "index" := by
  refine ⟨⟨by decide, by decide⟩, fun b last => ?_⟩
  obtain rfl := Option.some.inj last
  decide

end Stem

namespace Resolver

variable (view : View) {location : Url} {place : Place} (fromImport : Bool)

def decided (location : Url) (place : Place) (otherwise : Resolution) : Choice -> Resolution
  | .one file => .ofLocation? (Url.ofPath? (place.directory.join file))
  | .several files => .ambiguous (toString location) (files.map fun (file : String) => place.directory.join file)
  | .none => otherwise

theorem eval_atPlace (names : Place.ofUrl? location = some place)
    (otherwise : Place -> Directory -> Query Resolution)
    (empty : (otherwise place { files := [], directories := [] }).eval view = .absent) :
    (atPlace location fromImport otherwise).eval view =
      decided location place ((otherwise place (view.snapshot place.directory)).eval view)
        (Choice.ofFiles ((Stem.ofName place.name.toList).hits (view.snapshot place.directory) fromImport)) := by
  rw [atPlace, names, View.snapshot]
  simp only [Query.bind_eq, Query.eval_bind, Query.eval_lookup]
  cases view.directory place.directory with
  | none => simp [Stem.hits_empty, Choice.ofFiles, decided, empty]
  | some d =>
    simp only [Option.getD_some]
    cases Choice.ofFiles ((Stem.ofName place.name.toList).hits d fromImport) <;> rfl

def sass (files : Finset String) : Finset String :=
  files.filter fun file => Choice.isCss file = false

theorem decided_cases {d : Directory} (names : Place.ofUrl? location = some place) (otherwise : Resolution) :
    let found := (Stem.ofName place.name.toList).meant d fromImport
    let answer := decided location place otherwise
      (Choice.ofFiles ((Stem.ofName place.name.toList).hits d fromImport))
    found = ∅ ∧ answer = otherwise ∨
      (∃ file ∈ found, (found = {file} ∨ 2 <= found.card ∧ sass found = {file}) ∧
        ∃ u, Url.ofPath? (place.directory.join file) = some u ∧
          u.toPath? = some (place.directory.join file).normalize ∧ answer = .found u) ∨
      2 <= found.card ∧ (sass found).card ≠ 1 ∧ ∃ candidates, answer = .ambiguous (toString location) candidates ∧
        candidates.Nodup ∧ ∀ p, p ∈ candidates ↔ ∃ file ∈ found, p = place.directory.join file := by
  obtain ⟨absolute, _, free, _⟩ := Place.join_name names
  obtain ⟨nodup, meant⟩ := Stem.hits_meant place.name.toList d fromImport
  have isFileName : ∀ file ∈ (Stem.ofName place.name.toList).meant d fromImport, IsFileName file :=
    fun file mem => Stem.isFileName_of_concerns free (Stem.mem_of_mem_meant mem).2
  simp only [← meant] at isFileName ⊢
  generalize (Stem.ofName place.name.toList).hits d fromImport = files at nodup isFileName
  have card : files.toFinset.card = files.length := List.toFinset_card_of_nodup nodup
  have plain : sass files.toFinset = (files.filter fun f => !Choice.isCss f).toFinset := by
    ext file
    simp [sass]
  have plainCard : (sass files.toFinset).card = (files.filter fun f => !Choice.isCss f).length := by
    rw [plain, List.toFinset_card_of_nodup (nodup.filter _)]
  rcases Choice.ofFiles_cases files with ⟨rfl, choice⟩ | ⟨file, only, choice⟩ | ⟨two, several, choice⟩
  · exact .inl ⟨rfl, by rw [choice]; rfl⟩
  · have mem : file ∈ files.toFinset := by
      rw [List.mem_toFinset]
      rcases only with rfl | ⟨_, sole⟩
      · exact List.mem_cons_self
      · exact List.mem_of_mem_filter (sole ▸ List.mem_cons_self)
    obtain ⟨u, made, back, _⟩ := Place.exists_ofPath?_join absolute (isFileName file mem)
    refine .inr (.inl ⟨file, mem, ?_, u, made, back, by rw [choice, decided, made]; rfl⟩)
    rcases only with rfl | ⟨two, sole⟩
    · exact .inl rfl
    · exact .inr ⟨card ▸ two, by rw [plain, sole]; rfl⟩
  · refine .inr (.inr ⟨card ▸ two, plainCard ▸ several, _, by rw [choice]; rfl, ?_, fun p => ?_⟩)
    · refine (List.nodup_map_iff_inj_on nodup).mpr fun a ha b hb same => ?_
      -- A name is read back from its place in the directory.
      have name (file : String) (mem : file ∈ files) :
          (place.directory.join file).normalize.fileName? = some (Utf8.encode file.toList) :=
        Path.fileName?_normalize_join absolute (isFileName file (List.mem_toFinset.mpr mem)).name
      have encoded := name a ha
      rw [same, name b hb, Option.some.injEq] at encoded
      exact String.toList_inj.mp (Utf8.encode_injective encoded.symm)
    · simp only [List.mem_map, List.mem_toFinset, eq_comm]

theorem exists_index (names : Place.ofUrl? location = some place) :
    ∃ index, Url.ofPath? ((place.directory.join place.name).join "index") = some index ∧
      Place.ofUrl? index = some
        { path := ((place.directory.join place.name).join "index").normalize
          directory := (place.directory.join place.name).normalize
          name := "index" } ∧
      ∀ d, atIndex fromImport place d =
        if Stem.IsWhole place.name.toList ∧ place.name ∈ d.directories then resolve index fromImport false
        else pure .absent := by
  obtain ⟨absolute, absolute', _, whole⟩ := Place.join_name names
  have joined := Path.isAbsolute_join absolute place.name
  have index : IsName (Path.ofString "index").bytes := Stem.isFileName_index.name
  obtain ⟨u, made, _, there⟩ := Place.exists_ofPath?_join joined Stem.isFileName_index
  refine ⟨u, made, there, fun d => ?_⟩
  have made' : Url.ofPath? (place.path.join "index") = some u := by
    rw [← made]
    exact Url.ofPath?_congr (Path.isAbsolute_join absolute' _) (Path.isAbsolute_join joined _)
      (Path.normalize_join_congr whole.symm _)
  have test : ((Stem.extension? place.name.toList).isNone && d.hasDirectory place.name) = true ↔
      Stem.IsWhole place.name.toList ∧ place.name ∈ d.directories := by
    rw [Bool.and_eq_true, Option.isNone_iff_eq_none, Stem.extension?_eq_none, Directory.hasDirectory,
      List.contains_iff_mem]
  rw [atIndex, made']
  simp only [test]
  rfl

/-- What the answer to a location is, by the directory of its name and the directory of that name in it. The
files `found` are those that the name means. -/
structure Answered (view : View) (location : Url) (place : Place) (fromImport allowIndex : Bool)
    (found : Finset String) (answer : Resolution) : Prop where
  -- Several files are an ambiguity, unless one alone is no plain CSS.
  ambiguous : (∃ candidates, answer = .ambiguous (toString location) candidates ∧ candidates.Nodup ∧
    ∀ p, p ∈ candidates ↔ ∃ file ∈ found, p = place.directory.join file) ↔
      2 <= found.card ∧ (sass found).card ≠ 1
  chosen : ∀ file, found = {file} ∨ sass found = {file} ->
    ∃ u, Url.ofPath? (place.directory.join file) = some u ∧ answer = .found u
  -- With no file, the answer is that of the index, which has no index of its own.
  index : found = ∅ -> allowIndex = true -> Stem.IsWhole place.name.toList ->
    place.name ∈ (view.snapshot place.directory).directories ->
      ∃ u, Url.ofPath? ((place.directory.join place.name).join "index") = some u ∧
        answer = (resolve u fromImport false).eval view
  absent : found = ∅ -> ¬ (allowIndex = true ∧ Stem.IsWhole place.name.toList ∧
    place.name ∈ (view.snapshot place.directory).directories) -> answer = .absent
  -- What is found is a file that is listed in the directory, or in the one of that name in it.
  listed : ∀ u, answer = .found u ->
    (∃ file ∈ (view.snapshot place.directory).files, u.toPath? = some (place.directory.join file).normalize) ∨
      ∃ file ∈ (view.snapshot (place.directory.join place.name).normalize).files,
        u.toPath? = some ((place.directory.join place.name).join file).normalize

/-- Two views agree on what a place means, and on the index that it may mean. -/
structure Agree (view other : View) (place : Place) (fromImport : Bool) (s : Stem) : Prop where
  files : ∀ file, s.Concerns fromImport file ->
    (file ∈ (view.snapshot place.directory).files ↔ file ∈ (other.snapshot place.directory).files)
  directory : place.name ∈ (view.snapshot place.directory).directories ↔
    place.name ∈ (other.snapshot place.directory).directories
  index : ∀ file, Stem.index.Concerns fromImport file ->
    (file ∈ (view.snapshot (place.directory.join place.name).normalize).files ↔
      file ∈ (other.snapshot (place.directory.join place.name).normalize).files)

theorem eval_resolve (names : Place.ofUrl? location = some place) (allowIndex : Bool) :
    (resolve location fromImport allowIndex).eval view =
      decided location place
        (if allowIndex then (atIndex fromImport place (view.snapshot place.directory)).eval view else .absent)
        (Choice.ofFiles ((Stem.ofName place.name.toList).hits (view.snapshot place.directory) fromImport)) := by
  unfold resolve
  rw [eval_atPlace view fromImport names]
  · cases allowIndex <;> rfl
  · cases allowIndex with
    | false => rfl
    | true => simp [atIndex, Directory.hasDirectory]

theorem mem_snapshot_of_mem_meant {d : Directory} {s : Stem} {file : String}
    (h : file ∈ s.meant d fromImport) : file ∈ d.files :=
  (Stem.mem_of_mem_meant h).1

theorem index_cases (names : Place.ofUrl? location = some place) (allowIndex : Bool) (d : Directory) :
    let answer := if allowIndex then (atIndex fromImport place d).eval view else .absent
    (∀ specifier candidates, answer = .ambiguous specifier candidates -> candidates ≠ []) ∧
      ∀ u, answer = .found u -> ∃ file ∈ (view.snapshot (place.directory.join place.name).normalize).files,
        Url.ofPath? ((place.directory.join place.name).normalize.join file) = some u ∧
          u.toPath? = some ((place.directory.join place.name).normalize.join file).normalize ∧ IsFileName file := by
  obtain ⟨index, _, there, asked⟩ := exists_index fromImport names
  intro answer
  by_cases entered : allowIndex = true ∧ Stem.IsWhole place.name.toList ∧ place.name ∈ d.directories
  · obtain ⟨allowed, enters⟩ := entered
    have same : answer = (resolve index fromImport false).eval view := by
      simp only [answer, allowed, if_true, asked, if_pos enters]
    rw [eval_resolve view fromImport there] at same
    have cases := decided_cases fromImport (d := view.snapshot (place.directory.join place.name).normalize) there
      .absent
    simp only [Bool.false_eq_true, if_false] at same
    simp only [← same] at cases
    rcases cases with ⟨_, nothing⟩ | ⟨file, mem, _, u, made, back, found⟩ | ⟨two, _, candidates, several, _, listed⟩
    · simp [nothing]
    · refine ⟨by simp [found], fun u' found' => ⟨file, mem_snapshot_of_mem_meant fromImport mem, ?_⟩⟩
      rw [found, Resolution.found.injEq] at found'
      exact found' ▸ ⟨made, back, Stem.isFileName_of_concerns (by decide) (Stem.mem_of_mem_meant mem).2⟩
    · refine ⟨fun specifier candidates' same' => ?_, by simp [several]⟩
      rw [several, Resolution.ambiguous.injEq] at same'
      obtain ⟨file, mem⟩ := Finset.card_pos.mp (Nat.lt_of_lt_of_le Nat.zero_lt_two two)
      exact same'.2 ▸ List.ne_nil_of_mem ((listed _).mpr ⟨file, mem, rfl⟩)
  · have nothing : answer = .absent := by
      cases allowIndex with
      | false => rfl
      | true =>
        simp only [answer, if_true, asked]
        rw [if_neg (by simpa using entered)]
        rfl
    simp [nothing]

theorem resolve_congr (names : Place.ofUrl? location = some place) (allowIndex : Bool) {other : View}
    (agree : Agree view other place fromImport (Stem.ofName place.name.toList)) :
    (resolve location fromImport allowIndex).eval other = (resolve location fromImport allowIndex).eval view := by
  obtain ⟨index, _, there, asked⟩ := exists_index fromImport names
  have indexSame : (resolve index fromImport false).eval other = (resolve index fromImport false).eval view := by
    rw [eval_resolve other fromImport there, eval_resolve view fromImport there, Stem.ofName_index,
      Stem.hits_congr agree.index]
    rfl
  have entered : (atIndex fromImport place (other.snapshot place.directory)).eval other =
      (atIndex fromImport place (view.snapshot place.directory)).eval view := by
    rw [asked, asked]
    simp only [agree.directory]
    split
    · exact indexSame
    · rfl
  rw [eval_resolve other fromImport names, eval_resolve view fromImport names, entered,
    Stem.hits_congr agree.files]

theorem lists_of_resolve {allowIndex : Bool} {u : Url}
    (h : (resolve location fromImport allowIndex).eval view = .found u) : view.Lists u := by
  cases names : Place.ofUrl? location with
  | none =>
    rw [resolve, atPlace, names] at h
    simp at h
  | some place =>
    obtain ⟨absolute, _⟩ := Place.join_name names
    rw [eval_resolve view fromImport names] at h
    rcases decided_cases fromImport (d := view.snapshot place.directory) names _ with
      ⟨_, same⟩ | ⟨file, mem, _, u', made, back, same⟩ | ⟨_, _, _, same, _⟩
    · obtain ⟨file, mem, made, back, _⟩ :=
        (index_cases view fromImport names allowIndex (view.snapshot place.directory)).2 u (same.symm.trans h)
      obtain ⟨d, listed, inFiles⟩ := View.exists_of_mem_snapshot mem
      exact ⟨_, d, file, Path.isAbsolute_normalize (Path.isAbsolute_join absolute _), listed, inFiles, made, back⟩
    · obtain ⟨d, listed, inFiles⟩ := View.exists_of_mem_snapshot (mem_snapshot_of_mem_meant fromImport mem)
      rw [same, Resolution.found.injEq] at h
      exact ⟨_, d, file, absolute, listed, inFiles, h ▸ made, h ▸ back⟩
    · rw [same] at h
      simp at h

theorem answered_none (names : Place.ofUrl? location = some place) (allowIndex : Bool) {answer : Resolution}
    (same : answer =
      if allowIndex then (atIndex fromImport place (view.snapshot place.directory)).eval view else .absent) :
    Answered view location place fromImport allowIndex ∅ answer := by
  have joined := Path.isAbsolute_join (Place.join_name names).1 place.name
  obtain ⟨index, made, _, asked⟩ := exists_index fromImport names
  obtain ⟨someCandidates, someFile⟩ :=
    index_cases view fromImport names allowIndex (view.snapshot place.directory)
  refine ⟨⟨?_, ?_⟩, ?_, ?_, ?_, ?_⟩
  · -- An index may be ambiguous, but between some files, and here there are none.
    rintro ⟨candidates, ambiguous, _, listed⟩
    have none : candidates = [] := List.eq_nil_iff_forall_not_mem.mpr fun p mem => by
      simpa using (listed p).mp mem
    exact absurd none (someCandidates _ _ (same.symm.trans ambiguous))
  · rintro ⟨two, _⟩
    simp at two
  · rintro file (one | one)
    · simp at one
    · simp [sass] at one
  · intro _ allowed whole mem
    refine ⟨index, made, ?_⟩
    rw [same, allowed, if_pos rfl, asked, if_pos ⟨whole, mem⟩]
  · intro _ notEntered
    rw [same]
    cases allowIndex with
    | false => rfl
    | true =>
      rw [if_pos rfl, asked, if_neg (by simpa using notEntered)]
      rfl
  · intro u found
    obtain ⟨file, mem, _, back, fileName⟩ := someFile u (same.symm.trans found)
    refine .inr ⟨file, mem, back.trans (congrArg some ?_)⟩
    exact Path.normalize_normalize_join _ _

theorem answered_one {allowIndex : Bool} {found : Finset String} {answer : Resolution} {file : String} {u : Url}
    (mem : file ∈ found) (inDirectory : file ∈ (view.snapshot place.directory).files)
    (only : found = {file} ∨ 2 <= found.card ∧ sass found = {file})
    (located : Url.ofPath? (place.directory.join file) = some u)
    (back : u.toPath? = some (place.directory.join file).normalize) (same : answer = .found u) :
    Answered view location place fromImport allowIndex found answer := by
  have nonempty : found ≠ ∅ := Finset.ne_empty_of_mem mem
  refine ⟨⟨?_, ?_⟩, ?_, ?_, ?_, ?_⟩
  · rintro ⟨candidates, ambiguous, _⟩
    simp [same] at ambiguous
  · rintro ⟨two, several⟩
    rcases only with rfl | ⟨_, sole⟩
    · simp at two
    · simp [sole] at several
  · intro other one
    have equal : other = file := by
      rcases only with rfl | ⟨two, sole⟩ <;> rcases one with one | one
      · simpa using one.symm
      · have inOne : other ∈ sass {file} := one ▸ Finset.mem_singleton_self other
        exact Finset.mem_singleton.mp (Finset.mem_filter.mp inOne).1
      · simp [one] at two
      · simpa [sole] using one.symm
    exact equal ▸ ⟨u, located, same⟩
  · exact fun empty => absurd empty nonempty
  · exact fun empty => absurd empty nonempty
  · intro u' found'
    rw [same, Resolution.found.injEq] at found'
    exact .inl ⟨file, inDirectory, found' ▸ back⟩

theorem answered_several {allowIndex : Bool} {found : Finset String} {answer : Resolution} {candidates : List Path}
    (two : 2 <= found.card) (several : (sass found).card ≠ 1)
    (same : answer = .ambiguous (toString location) candidates) (nodup : candidates.Nodup)
    (listed : ∀ p, p ∈ candidates ↔ ∃ file ∈ found, p = place.directory.join file) :
    Answered view location place fromImport allowIndex found answer := by
  have nonempty : found ≠ ∅ := by
    rintro rfl
    simp at two
  refine ⟨⟨fun _ => ⟨two, several⟩, fun _ => ⟨candidates, same, nodup, listed⟩⟩, ?_, ?_, ?_, ?_⟩
  · rintro file (one | one)
    · simp [one] at two
    · simp [one] at several
  · exact fun empty => absurd empty nonempty
  · exact fun empty => absurd empty nonempty
  · intro u found'
    simp [same] at found'

/-- A location is answered by the files that its name means in its directory, and by nothing else. -/
theorem resolve_answered (names : Place.ofUrl? location = some place) (allowIndex : Bool) {s : Stem}
    (split : s.Splits place.name.toList) :
    Answered view location place fromImport allowIndex (s.meant (view.snapshot place.directory) fromImport)
        ((resolve location fromImport allowIndex).eval view) ∧
      ∀ other, Agree view other place fromImport s ->
        (resolve location fromImport allowIndex).eval other = (resolve location fromImport allowIndex).eval view := by
  obtain rfl := Stem.splits_iff.mp split
  refine ⟨?_, fun other agree => resolve_congr view fromImport names allowIndex agree⟩
  have cases := decided_cases fromImport (d := view.snapshot place.directory) names
    (if allowIndex then (atIndex fromImport place (view.snapshot place.directory)).eval view else .absent)
  simp only [← eval_resolve view fromImport names allowIndex] at cases
  rcases cases with ⟨empty, same⟩ | ⟨file, mem, only, u, located, back, same⟩ |
    ⟨two, several, candidates, same, nodup, listed⟩
  · rw [empty]
    exact answered_none view fromImport names allowIndex same
  · exact answered_one view fromImport mem (mem_snapshot_of_mem_meant fromImport mem) only located back same
  · exact answered_several view fromImport two several same nodup listed

-- A partial beside plain CSS of the same name.
def pairView : View :=
  { directory := fun dir => if dir = "/d" then some { files := ["_a.scss", "a.css"], directories := ["a"] } else none
    text := fun _ => none }

def pairLocation : Url :=
  Url.ofSegments ["d".toList, "a".toList]

theorem resolve_answered_pair :
    Place.ofUrl? pairLocation = some { path := "/d/a", directory := "/d", name := "a" } ∧
      Stem.Splits { name := ['a'], extensions := Stem.known } "a".toList ∧
        ∃ u, Url.ofPath? (Path.join "/d" "_a.scss") = some u ∧
          (resolve pairLocation false true).eval pairView = .found u := by
  have names : Place.ofUrl? pairLocation = some { path := "/d/a", directory := "/d", name := "a" } := by
    decide +kernel
  have split : Stem.Splits { name := ['a'], extensions := Stem.known } "a".toList :=
    Stem.splits_iff.mpr (by decide)
  have answered := (resolve_answered pairView false names true split).1
  exact ⟨names, split, answered.chosen "_a.scss" (.inr (by decide +kernel))⟩

end Resolver

end StylesheetImports
