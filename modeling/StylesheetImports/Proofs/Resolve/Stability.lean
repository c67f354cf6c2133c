import StylesheetImports.Proofs.Resolve.Relative

set_option autoImplicit false

namespace StylesheetImports

namespace View

-- The view of an index of directories, which keeps each one under the normal form of its path.
def ofIndex (index : Path -> Option Directory) (text : Path -> Option String) : View :=
  { directory := fun dir => index dir.normalize, text }

theorem snapshot_normalize (index : Path -> Option Directory) (text : Path -> Option String) (dir : Path) :
    (ofIndex index text).snapshot dir.normalize = (ofIndex index text).snapshot dir := by
  simp only [snapshot, ofIndex, Path.normalize_normalize]

end View

namespace Stem

/-- The files beside `stem ++ ext` that its name means as well: its partial and, for `@import`, its variants. -/
def rivals (stem ext : List Char) (fromImport : Bool) : List String :=
  String.ofList ('_' :: stem ++ ext) ::
    if fromImport then [String.ofList (stem ++ importMark ++ ext), String.ofList ('_' :: stem ++ importMark ++ ext)]
    else []

section

variable {s : Stem} {d : Directory} {fromImport : Bool} {stem ext : List Char} {file other : String}

theorem length_importMark : importMark.length = 7 := by decide

theorem mem_rivals_iff (whole : file.toList = stem ++ ext) :
    other ∈ rivals stem ext fromImport ↔
      ({ name := stem, extensions := [ext] } : Stem).Concerns fromImport other ∧ other ≠ file := by
  have longer (before : List Char) (long : before.length ≠ stem.length) (same : other.toList = before ++ ext) :
      other ≠ file := by
    rintro rfl
    rw [whole, List.append_cancel_right_eq] at same
    exact long (congrArg List.length same.symm)
  have read (text : List Char) : other = String.ofList text ↔ other.toList = text := by
    rw [String.ext_iff, String.toList_ofList]
  have mark := length_importMark
  have plain := longer ('_' :: stem) (by simp)
  have variant := longer (stem ++ importMark) (by simp [mark])
  have both := longer ('_' :: stem ++ importMark) (by simp [mark, Nat.add_assoc])
  cases fromImport <;>
    simp only [rivals, Concerns, Means, List.mem_cons, List.not_mem_nil, or_false, read, if_true, Bool.false_eq_true,
      if_false, false_and, true_and, false_or, exists_eq_left, List.append_nil]
  · constructor
    · exact fun partial_ => ⟨.inr partial_, plain partial_⟩
    · rintro ⟨same | partial_, apart⟩
      · exact absurd (String.toList_inj.mp (same.trans whole.symm)) apart
      · exact partial_
  · constructor
    · rintro (partial_ | import_ | import_)
      · exact ⟨.inr (.inr partial_), plain partial_⟩
      · exact ⟨.inl (.inl import_), variant import_⟩
      · exact ⟨.inl (.inr import_), both import_⟩
    · rintro ⟨(import_ | import_) | same | partial_, apart⟩
      · exact .inr (.inl import_)
      · exact .inr (.inr import_)
      · exact absurd (String.toList_inj.mp (same.trans whole.symm)) apart
      · exact .inl partial_

theorem isCss_append {before : List Char} (mem : ext ∈ known) (whole : file.toList = before ++ ext) :
    Choice.isCss file = true ↔ ext = ".css".toList := by
  rw [Choice.isCss, whole, List.isSuffixOf_iff_suffix]
  constructor
  · rintro ⟨short, same⟩
    exact (append_known (by decide) mem same).2.symm
  · rintro rfl
    exact List.suffix_append before _

theorem isCss_iff_of_concerns (mem : ext ∈ known) (whole : file.toList = stem ++ ext)
    (concerns : ({ name := stem, extensions := [ext] } : Stem).Concerns fromImport other) :
    Choice.isCss other = true ↔ Choice.isCss file = true := by
  obtain ⟨mark, _, e, one, same⟩ := exists_of_concerns concerns
  obtain rfl := List.mem_singleton.mp one
  rw [isCss_append mem whole]
  rcases same with same | same <;> exact isCss_append mem same

theorem Concerns.of_mem (mem : ext ∈ s.extensions)
    (concerns : ({ name := s.name, extensions := [ext] } : Stem).Concerns fromImport other) :
    s.Concerns fromImport other := by
  have wider {mark : List Char} (means : ({ name := s.name, extensions := [ext] } : Stem).Means mark other) :
      s.Means mark other := by
    obtain ⟨e, one, same⟩ := means
    exact ⟨e, List.mem_singleton.mp one ▸ mem, same⟩
  exact concerns.imp (And.imp_right wider) wider

theorem not_means_importMark (subset : ∀ e ∈ s.extensions, e ∈ known) (mem : ext ∈ known)
    (whole : file.toList = s.name ++ ext) : ¬s.Means importMark file := by
  rintro ⟨e, listed, same | same⟩ <;>
    have names := congrArg List.length (append_known mem (subset e listed) (whole.symm.trans same)).1
  · rw [List.length_append, length_importMark] at names
    omega
  · rw [List.length_append, List.length_cons, length_importMark] at names
    omega

theorem mem_listed {mark : List Char} : file ∈ s.listed d mark ↔ file ∈ d.files ∧ s.Means mark file := by
  rw [listed, Finset.mem_filter, List.mem_toFinset]

theorem mem_meant_of_concerns (subset : ∀ e ∈ s.extensions, e ∈ known) (mem : ext ∈ known)
    (whole : file.toList = s.name ++ ext) (meant_ : file ∈ s.meant d fromImport) (there : other ∈ d.files)
    (concerns : s.Concerns fromImport other) : other ∈ s.meant d fromImport := by
  have noVariant := not_means_importMark subset mem whole
  unfold meant at meant_ ⊢
  by_cases none : (if fromImport then s.listed d importMark else ∅) = ∅
  next =>
    simp only [if_pos none]
    rcases concerns with ⟨imports, means⟩ | means
    · rw [if_pos imports] at none
      exact absurd (mem_listed.mpr ⟨there, means⟩) (none ▸ Finset.notMem_empty other)
    · exact mem_listed.mpr ⟨there, means⟩
  next =>
    simp only [if_neg none] at meant_
    cases fromImport with
    | false => exact absurd rfl none
    | true => exact absurd (mem_listed.mp meant_).2 noVariant

theorem meant_nonempty (mem : ext ∈ s.extensions) (whole : file.toList = s.name ++ ext) (there : file ∈ d.files) :
    s.meant d fromImport ≠ ∅ := by
  unfold meant
  by_cases none : (if fromImport then s.listed d importMark else ∅) = ∅
  next =>
    simp only [if_pos none]
    apply Finset.ne_empty_of_mem
    exact mem_listed.mpr ⟨there, ext, mem, .inl (by rw [List.append_nil, whole])⟩
  next =>
    simp only [if_neg none]
    exact none

theorem name_ofName_ne_nil {name : List Char} (nonempty : name ≠ []) : (ofName name).name ≠ [] := by
  rcases splits_iff.mpr (rfl : ofName name = ofName name) with ⟨_, _, some, _⟩ | ⟨_, same⟩
  · exact some
  · rw [same]
    exact nonempty

end

end Stem

theorem Place.name_ne_nil {u : Url} {place : Place} (h : ofUrl? u = some place) : place.name.toList ≠ [] := by
  obtain ⟨_, parent, text⟩ := ofUrl?_eq_some.mp h
  obtain ⟨name, fileName, read⟩ := Option.bind_eq_some_iff.mp text
  obtain ⟨written, decoded, same⟩ := Option.map_eq_some_iff.mp read
  have segment := Path.isName_of_fileName? (join_name h).2.1 fileName
  rw [← same, String.toList_ofList]
  rintro rfl
  rw [← Utf8.encode_of_decode? decoded] at segment
  exact segment.1.text_ne_nil rfl

namespace Resolver

open Stem

variable {d : Directory} {fromImport : Bool} {stem ext : List Char} {file other : String} {s : Stem}

theorem not_mem_of_chosen (subset : ∀ e ∈ s.extensions, e ∈ known) (mem : ext ∈ s.extensions)
    (whole : file.toList = s.name ++ ext) (meant_ : file ∈ s.meant d fromImport)
    (only : s.meant d fromImport = {file} ∨ sass (s.meant d fromImport) = {file}) :
    ∀ other ∈ rivals s.name ext fromImport, other ∉ d.files := by
  intro other rival there
  obtain ⟨concerns, apart⟩ := (mem_rivals_iff whole).mp rival
  have also := mem_meant_of_concerns subset (subset ext mem) whole meant_ there (concerns.of_mem mem)
  rcases only with only | only
  · rw [only] at also
    exact apart (Finset.mem_singleton.mp also)
  · -- The rival has the same extension, so it is no plain CSS either.
    have chosen : file ∈ sass (s.meant d fromImport) := only ▸ Finset.mem_singleton_self file
    have kin := isCss_iff_of_concerns (subset ext mem) whole concerns
    have noCss : Choice.isCss other = false := by
      rw [← Bool.not_eq_true, kin, Bool.not_eq_true]
      exact (Finset.mem_filter.mp chosen).2
    have listed : other ∈ sass (s.meant d fromImport) := Finset.mem_filter.mpr ⟨also, noCss⟩
    rw [only] at listed
    exact apart (Finset.mem_singleton.mp listed)

theorem meant_eq_singleton (one : s = { name := stem, extensions := [ext] }) (whole : file.toList = stem ++ ext)
    (there : file ∈ d.files) (alone : ∀ other ∈ rivals stem ext fromImport, other ∉ d.files) :
    s.meant d fromImport = {file} := by
  subst one
  apply Finset.eq_singleton_iff_nonempty_unique_mem.mpr
  refine ⟨Finset.nonempty_iff_ne_empty.mpr (meant_nonempty List.mem_cons_self whole there), ?_⟩
  intro other mem
  obtain ⟨listed, concerns⟩ := mem_of_mem_meant mem
  by_contra apart
  exact alone other ((mem_rivals_iff whole).mpr ⟨concerns, apart⟩) listed

variable {view : View} {location u : Url} {place : Place} {allowIndex : Bool}

theorem eq_of_decided_found {otherwise : Resolution} (names : Place.ofUrl? location = some place)
    (found : decided location place otherwise
      (Choice.ofFiles ((Stem.ofName place.name.toList).hits d fromImport)) = .found u) :
    otherwise = .found u ∨ ∃ file ∈ (Stem.ofName place.name.toList).meant d fromImport,
      ((Stem.ofName place.name.toList).meant d fromImport = {file} ∨
        sass ((Stem.ofName place.name.toList).meant d fromImport) = {file}) ∧
      Url.ofPath? (place.directory.join file) = some u := by
  rcases decided_cases fromImport (d := d) names otherwise with
    ⟨_, same⟩ | ⟨file, mem, only, u', made, _, same⟩ | ⟨_, _, candidates, same, _⟩
  · exact .inl (same.symm.trans found)
  · obtain rfl := Resolution.found.inj (same.symm.trans found)
    exact .inr ⟨file, mem, only.imp_right And.right, made⟩
  · rw [same] at found
    simp at found

theorem exists_chosen (found : (resolve location fromImport allowIndex).eval view = .found u) :
    ∃ (place : Place) (dir : Path) (name : List Char), Place.ofUrl? location = some place ∧
      (dir = place.directory ∧ name = place.name.toList ∨
        dir = (place.directory.join place.name).normalize ∧ name = "index".toList) ∧ dir.isAbsolute = true ∧
      '/' ∉ name ∧ name ≠ [] ∧ ∃ file ∈ (Stem.ofName name).meant (view.snapshot dir) fromImport,
        ((Stem.ofName name).meant (view.snapshot dir) fromImport = {file} ∨
          sass ((Stem.ofName name).meant (view.snapshot dir) fromImport) = {file}) ∧
        Url.ofPath? (dir.join file) = some u := by
  cases names : Place.ofUrl? location with
  | none =>
    rw [resolve, atPlace, names] at found
    simp at found
  | some place =>
    obtain ⟨absolute, _, free, _⟩ := Place.join_name names
    rw [eval_resolve view fromImport names] at found
    rcases eq_of_decided_found names found with entered | ⟨file, chosen⟩
    · obtain ⟨index, _, there, asked⟩ := exists_index fromImport names
      have inside : (resolve index fromImport false).eval view = .found u := by
        cases allowIndex with
        | false => simp at entered
        | true =>
          rw [if_pos rfl, asked] at entered
          split at entered
          next => exact entered
          next => simp at entered
      rw [eval_resolve view fromImport there] at inside
      rcases eq_of_decided_found there inside with none | ⟨file, chosen⟩
      · simp at none
      · refine ⟨place, _, _, rfl, .inr ⟨rfl, rfl⟩, ?_, by decide, by decide, file, chosen⟩
        exact Path.isAbsolute_normalize (Path.isAbsolute_join absolute _)
    · exact ⟨place, _, _, rfl, .inl ⟨rfl, rfl⟩, absolute, free, Place.name_ne_nil names, file, chosen⟩

theorem ofName_append (mem : ext ∈ known) (nonempty : stem ≠ []) :
    ofName (stem ++ ext) = { name := stem, extensions := [ext] } := by
  have split : Splits { name := stem, extensions := [ext] } (stem ++ ext) := .inl ⟨ext, mem, nonempty, rfl, rfl⟩
  exact (splits_iff.mp split).symm

theorem ofPath?_join_normalize {dir : Path} (absolute : dir.isAbsolute = true) (file : String) :
    Url.ofPath? (dir.normalize.join file) = Url.ofPath? (dir.join file) := by
  have normal := Path.isAbsolute_normalize absolute
  apply Url.ofPath?_congr (Path.isAbsolute_join normal _) (Path.isAbsolute_join absolute _)
  exact Path.normalize_normalize_join dir _

theorem exists_place {dir : Path} (absolute : dir.isAbsolute = true) (fileName : IsFileName file)
    (made : Url.ofPath? (dir.join file) = some u) :
    ∃ path, Place.ofUrl? u = some { path, directory := dir.normalize, name := file } := by
  obtain ⟨u', made', _, place⟩ := Place.exists_ofPath?_join absolute fileName
  obtain rfl := Option.some.inj (made'.symm.trans made)
  exact ⟨_, place⟩

theorem resolve_file_iff (fromImport allowIndex : Bool) {index : Path -> Option Directory}
    {text : Path -> Option String} {dir : Path} (absolute : dir.isAbsolute = true) (mem : ext ∈ known)
    (nonempty : stem ≠ []) (whole : file.toList = stem ++ ext) (fileName : IsFileName file)
    (there : file ∈ ((View.ofIndex index text).snapshot dir).files) (made : Url.ofPath? (dir.join file) = some u) :
    (resolve u fromImport allowIndex).eval (View.ofIndex index text) = .found u ↔
      ∀ other ∈ rivals stem ext fromImport, other ∉ ((View.ofIndex index text).snapshot dir).files := by
  obtain ⟨path, names⟩ := exists_place absolute fileName made
  have free := (Place.join_name names).2.2.1
  have split : ofName file.toList = { name := stem, extensions := [ext] } := by rw [whole, ofName_append mem nonempty]
  rw [eval_resolve _ fromImport names, View.snapshot_normalize]
  constructor
  · intro found
    rcases eq_of_decided_found names found with entered | ⟨chosen, meant_, only, made'⟩
    · -- A name with the extension of a stylesheet has no index.
      obtain ⟨_, _, _, asked⟩ := exists_index fromImport names
      have noIndex : ¬IsWhole file.toList := fun none => none ext mem stem nonempty whole
      cases allowIndex with
      | false => simp at entered
      | true =>
        rw [if_pos rfl, asked, if_neg fun enters => noIndex enters.1] at entered
        simp at entered
    · -- Two names in one directory have different locations, so the file that is chosen is the same.
      have isName := isFileName_of_concerns free (mem_of_mem_meant meant_).2
      obtain ⟨_, same⟩ := exists_place absolute isName ((ofPath?_join_normalize absolute _).symm.trans made')
      obtain rfl : file = chosen := congrArg Place.name (Option.some.inj (names.symm.trans same))
      rw [split] at meant_ only
      exact not_mem_of_chosen (by simpa using mem) List.mem_cons_self whole meant_ only
  · intro alone
    have one := meant_eq_singleton split whole there alone
    generalize (if allowIndex = true then _ else _ : Resolution) = otherwise
    rcases decided_cases fromImport (d := (View.ofIndex index text).snapshot dir) names otherwise with
      ⟨empty, _⟩ | ⟨chosen, meant_, _, u', made', _, same⟩ | ⟨two, _⟩
    · rw [one] at empty
      exact absurd empty (Finset.singleton_ne_empty file)
    · rw [one] at meant_
      obtain rfl := Finset.mem_singleton.mp meant_
      rw [ofPath?_join_normalize absolute, made] at made'
      rw [same, Option.some.inj made']
    · rw [one] at two
      simp at two

/-- What it takes that a location is found again. The file `stem ++ ext` was found in `dir` under the name that was
asked for, or as the index of the directory of that name. -/
structure Again (view : View) (location u : Url) (fromImport allowIndex : Bool) (place : Place) (dir : Path)
    (name stem ext : List Char) (file : String) : Prop where
  asked : Place.ofUrl? location = some place
  directory : dir = place.directory ∧ name = place.name.toList ∨
    dir = (place.directory.join place.name).normalize ∧ name = "index".toList
  concerns : (Stem.ofName name).Concerns fromImport file
  listed : file ∈ (view.snapshot dir).files
  located : Url.ofPath? (dir.join file) = some u
  split : file.toList = stem ++ ext
  known : ext ∈ Stem.known
  again : (resolve u fromImport allowIndex).eval view = .found u ↔
    ∀ other ∈ rivals stem ext fromImport, other ∉ (view.snapshot dir).files
  -- A file that is neither a partial of the name nor a variant of it has no rivals.
  plain : stem = (Stem.ofName name).name -> (resolve u fromImport allowIndex).eval view = .found u

/-- A location that is found is that of a listed file, and is found again exactly where no rival of that file is
listed. -/
theorem resolve_again {index : Path -> Option Directory} {text : Path -> Option String}
    (found : (resolve location fromImport allowIndex).eval (View.ofIndex index text) = .found u) :
    ∃ place dir name stem ext file,
      Again (View.ofIndex index text) location u fromImport allowIndex place dir name stem ext file := by
  obtain ⟨place, dir, name, names, where_, absolute, free, nonempty, file, meant_, only, made⟩ := exists_chosen found
  obtain ⟨there, concerns⟩ := mem_of_mem_meant meant_
  have fileName := isFileName_of_concerns free concerns
  have subset := (extensions_ofName name).1
  obtain ⟨stem, ext, mem, whole, some⟩ : ∃ stem ext, ext ∈ (Stem.ofName name).extensions ∧ file.toList = stem ++ ext ∧
      stem ≠ [] := by
    have some := name_ofName_ne_nil nonempty
    obtain ⟨mark, _, ext, mem, whole | whole⟩ := exists_of_concerns concerns
    · exact ⟨_, ext, mem, whole, by simp [some]⟩
    · exact ⟨_, ext, mem, whole, by simp⟩
  have again := resolve_file_iff fromImport allowIndex absolute (subset ext mem) some
    whole fileName there made
  refine ⟨place, dir, name, stem, ext, file, names, where_, concerns, there, made, whole, subset ext mem, again, ?_⟩
  rintro rfl
  exact again.mpr (not_mem_of_chosen subset mem whole meant_ only)

-- A partial, and a partial of the partial.
def doubled : View :=
  View.ofIndex (fun dir => if dir = "/d" then some { files := ["__a.scss", "_a.scss"], directories := [] } else none)
    fun _ => none

def partialLocation : Url :=
  Url.ofSegments ["d".toList, "_a.scss".toList]

theorem resolve_doubled :
    (resolve pairLocation false true).eval doubled = .found partialLocation ∧
      (resolve partialLocation false true).eval doubled ≠ .found partialLocation := by
  decide +kernel

theorem resolve_again_doubled :
    (resolve pairLocation false true).eval doubled = .found partialLocation ∧
      ∃ place dir name stem ext file,
        Again doubled pairLocation partialLocation false true place dir name stem ext file := by
  have found : (resolve pairLocation false true).eval doubled = .found partialLocation := by decide +kernel
  exact ⟨found, resolve_again found⟩

end Resolver

end StylesheetImports
