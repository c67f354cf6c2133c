import StylesheetImports.Proofs.Resolve.Stability

set_option autoImplicit false

namespace StylesheetImports

namespace Path

variable {a b : Path}

theorem normalize_congr (same : a.components = b.components) : a.normalize = b.normalize := by
  rw [normalize, normalize, same]

theorem components_join_congr (absolute : a.isAbsolute = true) (absolute' : b.isAbsolute = true)
    (same : a.components = b.components) (p : Path) : (a.join p).components = (b.join p).components := by
  cases relative : p.isAbsolute with
  | true => rw [join, join, if_pos relative, if_pos relative]
  | false => rw [components_join absolute relative, components_join absolute' relative, same]

end Path

theorem Url.ofPath?_join_congr {a b : Path} (absolute : a.isAbsolute = true) (absolute' : b.isAbsolute = true)
    (same : a.components = b.components) (p : Path) : Url.ofPath? (a.join p) = Url.ofPath? (b.join p) :=
  ofPath?_congr (Path.isAbsolute_join absolute p) (Path.isAbsolute_join absolute' p)
    (Path.normalize_congr (Path.components_join_congr absolute absolute' same p))

namespace Resolution

/-- Two answers that say the same, but for the text of an ambiguous specifier. -/
inductive Alike : Resolution -> Resolution -> Prop where
  | found (location : Url) : Alike (.found location) (.found location)
  | absent : Alike .absent .absent
  | ambiguous {named named' : String} {candidates candidates' : List Path}
      (same : candidates.map Path.components = candidates'.map Path.components) :
      Alike (.ambiguous named candidates) (.ambiguous named' candidates')

theorem Alike.refl (r : Resolution) : Alike r r := by
  cases r with
  | found location => exact .found location
  | absent => exact .absent
  | ambiguous named candidates => exact .ambiguous rfl

theorem Alike.symm {r other : Resolution} (h : Alike r other) : Alike other r := by
  cases h with
  | found location => exact .found location
  | absent => exact .absent
  | ambiguous same => exact .ambiguous same.symm

end Resolution

namespace Stem

-- The two files of a name with one extension: the plain one and its partial.
def twins (s : Stem) (ext : List Char) : List String :=
  [String.ofList (s.name ++ ext), String.ofList ('_' :: s.name ++ ext)]

theorem mem_twins {s : Stem} {ext : List Char} {file : String} :
    file ∈ s.twins ext ↔ file.toList = s.name ++ ext ∨ file.toList = '_' :: s.name ++ ext := by
  simp only [twins, List.mem_cons, List.not_mem_nil, or_false, String.ext_iff, String.toList_ofList]

theorem nodup_twins (s : Stem) (ext : List Char) : (s.twins ext).Nodup := by
  have longer : s.name ++ ext ≠ '_' :: s.name ++ ext := fun same => by simpa using congrArg List.length same
  rw [twins, List.nodup_cons, List.mem_singleton, String.ofList_inj]
  exact ⟨longer, List.nodup_singleton _⟩

theorem isName_of_mem_twins {name ext : List Char} (free : '/' ∉ name) (mem : ext ∈ (ofName name).extensions)
    {file : String} (twin : file ∈ (ofName name).twins ext) : IsName (Path.ofString file).bytes := by
  have means : (ofName name).Means [] file := ⟨ext, mem, by simpa using mem_twins.mp twin⟩
  have concerns : (ofName name).Concerns false file := .inr means
  exact (isFileName_of_concerns free concerns).name

theorem eq_of_means_twins {s t : Stem} {ext : List Char} (mem : ext ∈ known)
    (subset : ∀ e ∈ t.extensions, e ∈ known) (means : ∀ file ∈ s.twins ext, t.Means [] file) :
    t.name = s.name ∧ ext ∈ t.extensions := by
  have plain := means _ (mem_twins.mpr (.inl String.toList_ofList))
  have partial_ := means _ (mem_twins.mpr (.inr String.toList_ofList))
  have read {before : List Char} (means : t.Means [] (String.ofList (before ++ ext))) :
      ext ∈ t.extensions ∧ (before = t.name ∨ before = '_' :: t.name) := by
    obtain ⟨other, listed, same⟩ := means
    rw [String.toList_ofList, List.append_nil, List.cons_append, List.append_nil] at same
    rcases same with same | same
    · obtain ⟨names, rfl⟩ := append_known mem (subset other listed) same
      exact ⟨listed, .inl names⟩
    · obtain ⟨names, rfl⟩ := append_known mem (subset other listed) (same.trans (List.cons_append ..).symm)
      exact ⟨listed, .inr names⟩
  obtain ⟨listed, first⟩ := read plain
  obtain ⟨_, second⟩ := read partial_
  refine ⟨?_, listed⟩
  -- A partial of a partial would be too long for both.
  rcases first with same | same
  · exact same.symm
  · have length := congrArg List.length same
    rcases second with other | other <;>
    · have length' := congrArg List.length other
      simp only [List.length_cons] at length length'
      omega

theorem sass_twins {s : Stem} {ext : List Char} (mem : ext ∈ known) :
    (Resolver.sass (s.twins ext).toFinset).card ≠ 1 := by
  have css (file : String) (twin : file ∈ s.twins ext) : Choice.isCss file = true ↔ ext = ".css".toList := by
    rcases mem_twins.mp twin with whole | whole <;> exact isCss_append mem whole
  by_cases plain : ext = ".css".toList
  · have none : Resolver.sass (s.twins ext).toFinset = ∅ := by
      rw [Resolver.sass, Finset.filter_eq_empty_iff]
      intro file twin
      simp [(css file (List.mem_toFinset.mp twin)).mpr plain]
    simp [none]
  · have all : Resolver.sass (s.twins ext).toFinset = (s.twins ext).toFinset := by
      rw [Resolver.sass, Finset.filter_eq_self]
      intro file twin
      simpa using mt (css file (List.mem_toFinset.mp twin)).mp plain
    rw [all, List.toFinset_card_of_nodup (nodup_twins s ext)]
    simp [twins]

theorem lone (ext : List Char) : ¬∀ e ∈ known, e = ext := by
  intro all
  have first := all ".sass".toList (by decide)
  rw [← all ".css".toList (by decide)] at first
  exact absurd first (by decide)

theorem name_eq {name other : List Char} (same : (ofName name).name = (ofName other).name)
    (exts : ∀ ext ∈ (ofName name).extensions, ext ∈ (ofName other).extensions)
    (exts' : ∀ ext ∈ (ofName other).extensions, ext ∈ (ofName name).extensions) : name = other := by
  rcases splits_iff.mpr (rfl : ofName name = _) with ⟨ext, mem, _, split, only⟩ | ⟨_, whole⟩
  · rcases splits_iff.mpr (rfl : ofName other = _) with ⟨ext', _, _, split', only'⟩ | ⟨_, whole'⟩
    · rw [only, only'] at exts
      rw [split, split', same, List.mem_singleton.mp (exts ext List.mem_cons_self)]
    · -- One of the names has all extensions and the other a single one.
      rw [only, whole'] at exts'
      exact absurd (fun e he => List.mem_singleton.mp (exts' e he)) (lone ext)
  · rcases splits_iff.mpr (rfl : ofName other = _) with ⟨ext', _, _, split', only'⟩ | ⟨_, whole'⟩
    · rw [whole, only'] at exts
      exact absurd (fun e he => List.mem_singleton.mp (exts e he)) (lone ext')
    · rw [whole, whole'] at same
      exact same

end Stem

namespace Resolver

/-- Where a location is looked for: the steps of its directory, and its name in it. -/
def spot? (location : Url) : Option (List Component × String) :=
  (Place.ofUrl? location).map fun place => (place.directory.components, place.name)

def resolveAt (location : Option Url) (fromImport : Bool) : Query Resolution :=
  location.elim (pure .absent) fun location => resolve location fromImport true

variable {location : Url} {place : Place} {here : Option Url}

theorem spot?_eq_some {spot : List Component × String} : here.bind spot? = some spot ↔
    ∃ location place, here = some location ∧ Place.ofUrl? location = some place ∧
      (place.directory.components, place.name) = spot := by
  simp [Option.bind_eq_some_iff, spot?]

theorem eval_resolveAt_of_none (view : View) (nowhere : here.bind spot? = none) (fromImport : Bool) :
    (resolveAt here fromImport).eval view = .absent := by
  cases here with
  | none => rfl
  | some location =>
    have unplaced : Place.ofUrl? location = none := by simpa [spot?] using nowhere
    rw [resolveAt, Option.elim_some, resolve, atPlace, unplaced]
    rfl

theorem alike_of_spot (index : Path -> Option Directory) (text : Path -> Option String) {there : Option Url}
    (same : here.bind spot? = there.bind spot?) (fromImport : Bool) :
    ((resolveAt here fromImport).eval (.ofIndex index text)).Alike
      ((resolveAt there fromImport).eval (.ofIndex index text)) := by
  cases found : here.bind spot? with
  | none =>
    rw [eval_resolveAt_of_none _ found, eval_resolveAt_of_none _ (same ▸ found)]
    exact .absent
  | some spot =>
    obtain ⟨u, p, rfl, names, spotted⟩ := spot?_eq_some.mp found
    obtain ⟨v, q, rfl, names', spotted'⟩ := spot?_eq_some.mp (same ▸ found)
    obtain ⟨dirs, name⟩ := Prod.mk.injEq _ _ _ _ ▸ spotted.trans spotted'.symm
    obtain ⟨absolute, _⟩ := Place.join_name names
    obtain ⟨absolute', _⟩ := Place.join_name names'
    have below (file : Path) : (p.directory.join file).components = (q.directory.join file).components :=
      Path.components_join_congr absolute absolute' dirs file
    have snapshot : (View.ofIndex index text).snapshot p.directory = (View.ofIndex index text).snapshot q.directory := by
      simp only [View.snapshot, View.ofIndex, Path.normalize_congr dirs]
    have located (file : Path) : Url.ofPath? (p.directory.join file) = Url.ofPath? (q.directory.join file) :=
      Url.ofPath?_join_congr absolute absolute' dirs file
    have inside : Url.ofPath? ((p.directory.join p.name).join "index") =
        Url.ofPath? ((q.directory.join q.name).join "index") := by
      rw [name]
      exact Url.ofPath?_join_congr (Path.isAbsolute_join absolute _) (Path.isAbsolute_join absolute' _) (below _) _
    obtain ⟨i, made, _, asked⟩ := exists_index fromImport names
    obtain ⟨j, made', _, asked'⟩ := exists_index fromImport names'
    obtain rfl : i = j := Option.some.inj (made.symm.trans (inside.trans made'))
    rw [resolveAt, resolveAt, Option.elim_some, Option.elim_some, eval_resolve _ fromImport names,
      eval_resolve _ fromImport names', snapshot, asked, asked', name]
    cases Choice.ofFiles ((Stem.ofName q.name.toList).hits ((View.ofIndex index text).snapshot q.directory) fromImport) with
    | none => exact .refl _
    | one file =>
      rw [decided, decided, located]
      exact .refl _
    | several files =>
      refine .ambiguous ?_
      rw [List.map_map, List.map_map]
      exact List.map_congr_left fun file _ => below file

def indexOf (dir : Path) (files : List String) (d : Path) : Option Directory :=
  if d = dir.normalize then some { files, directories := [] } else none

def viewOf (dir : Path) (files : List String) : View :=
  .ofIndex (indexOf dir files) fun _ => none

theorem snapshot_viewOf (dir d : Path) (files : List String) :
    (viewOf dir files).snapshot d = { files := if d.normalize = dir.normalize then files else [], directories := [] } := by
  simp only [View.snapshot, viewOf, View.ofIndex, indexOf]
  split <;> rfl

theorem eval_viewOf (names : Place.ofUrl? location = some place) (dir : Path) (files : List String) :
    (resolve location false true).eval (viewOf dir files) =
      decided location place .absent
        (Choice.ofFiles ((Stem.ofName place.name.toList).hits ((viewOf dir files).snapshot place.directory) false)) := by
  have noIndex : atIndex false place ((viewOf dir files).snapshot place.directory) = pure .absent := by
    rw [atIndex, if_neg]
    simp [snapshot_viewOf, Directory.hasDirectory]
  rw [eval_resolve _ false names, noIndex]
  rfl

variable {ext : List Char} {s : Stem}

theorem ambiguous_of_twins (names : Place.ofUrl? location = some place)
    (mem : ext ∈ (Stem.ofName place.name.toList).extensions) :
    ∃ candidates, (resolve location false true).eval
        (viewOf place.directory ((Stem.ofName place.name.toList).twins ext)) = .ambiguous (toString location) candidates ∧
      ∀ p, p ∈ candidates ↔ ∃ file ∈ (Stem.ofName place.name.toList).twins ext, p = place.directory.join file := by
  generalize split : Stem.ofName place.name.toList = s at mem ⊢
  have known := (Stem.extensions_ofName place.name.toList).1 ext (split ▸ mem)
  have listed : s.meant ((viewOf place.directory (s.twins ext)).snapshot place.directory) false =
      (s.twins ext).toFinset := by
    rw [snapshot_viewOf, if_pos rfl]
    refine Finset.filter_eq_self.mpr fun file twin => ⟨ext, mem, ?_⟩
    simpa using Stem.mem_twins.mp (List.mem_toFinset.mp twin)
  have two : (s.twins ext).toFinset.card = 2 := List.toFinset_card_of_nodup (Stem.nodup_twins s ext)
  have cases := decided_cases false (d := (viewOf place.directory (s.twins ext)).snapshot place.directory) names .absent
  simp only [split, listed] at cases
  rw [eval_viewOf names, split]
  rcases cases with ⟨none, _⟩ | ⟨file, _, only, _⟩ | ⟨_, _, candidates, same, _, all⟩
  · simp [none] at two
  · rcases only with only | ⟨_, only⟩
    · simp [only] at two
    · exact absurd (congrArg Finset.card only) (Stem.sass_twins known)
  · exact ⟨candidates, same, fun p => by rw [all]; simp only [List.mem_toFinset]⟩

theorem twins_of_ambiguous (names : Place.ofUrl? location = some place) {dir : Path} {named : String}
    {candidates : List Path}
    (ambiguous : (resolve location false true).eval (viewOf dir (s.twins ext)) = .ambiguous named candidates) :
    (∀ file ∈ s.twins ext, (Stem.ofName place.name.toList).Means [] file) ∧
      ∀ p ∈ candidates, ∃ file ∈ s.twins ext, p = place.directory.join file := by
  rw [eval_viewOf names] at ambiguous
  have cases := decided_cases false (d := (viewOf dir (s.twins ext)).snapshot place.directory) names .absent
  have within : (Stem.ofName place.name.toList).meant ((viewOf dir (s.twins ext)).snapshot place.directory) false ⊆
      (s.twins ext).toFinset := by
    intro file mem
    have listed := mem_snapshot_of_mem_meant false mem
    rw [snapshot_viewOf] at listed
    split at listed
    · exact List.mem_toFinset.mpr listed
    · exact absurd listed List.not_mem_nil
  have two : (s.twins ext).toFinset.card = 2 := List.toFinset_card_of_nodup (Stem.nodup_twins s ext)
  rcases cases with ⟨_, same⟩ | ⟨file, _, _, u, _, _, same⟩ | ⟨many, _, others, same, _, all⟩
  · simp [same] at ambiguous
  · simp [same] at ambiguous
  · -- There are no more than two files, so both are meant.
    have whole := Finset.eq_of_subset_of_card_le within (two ▸ many)
    rw [same, Resolution.ambiguous.injEq] at ambiguous
    refine ⟨fun file twin => ?_, fun p mem => ?_⟩
    · have meant := Stem.mem_of_mem_meant (whole.symm ▸ List.mem_toFinset.mpr twin)
      exact meant.2.resolve_left (by simp)
    · obtain ⟨file, mem, joined⟩ := (all p).mp (ambiguous.2 ▸ mem)
      exact ⟨file, List.mem_toFinset.mp (within mem), joined⟩

theorem exists_place_of_alike {there : Option Url} (found : here.bind Place.ofUrl? = some place)
    (alike : ∀ dir files, ((resolveAt here false).eval (viewOf dir files)).Alike
      ((resolveAt there false).eval (viewOf dir files)))
    (mem : ext ∈ (Stem.ofName place.name.toList).extensions) :
    ∃ other, there.bind Place.ofUrl? = some other ∧ other.directory.components = place.directory.components ∧
      (Stem.ofName other.name.toList).name = (Stem.ofName place.name.toList).name ∧
        ext ∈ (Stem.ofName other.name.toList).extensions := by
  obtain ⟨location, rfl, names⟩ := Option.bind_eq_some_iff.mp found
  obtain ⟨absolute, _, free, _⟩ := Place.join_name names
  have known := (Stem.extensions_ofName place.name.toList).1 ext mem
  obtain ⟨candidates, ambiguous, all⟩ := ambiguous_of_twins names mem
  have answers := alike place.directory ((Stem.ofName place.name.toList).twins ext)
  rw [resolveAt, Option.elim_some, ambiguous] at answers
  cases there with
  | none => cases answers
  | some location' =>
    generalize answer : (resolveAt (some location') false).eval _ = r at answers
    cases answers with
    | ambiguous same =>
      cases names' : Place.ofUrl? location' with
      | none =>
        rw [eval_resolveAt_of_none _ (by simp [spot?, names'])] at answer
        simp at answer
      | some other =>
        obtain ⟨means, joined⟩ := twins_of_ambiguous names' answer
        obtain ⟨stem, listed⟩ := Stem.eq_of_means_twins known (Stem.extensions_ofName other.name.toList).1 means
        refine ⟨other, by simpa using names', ?_, stem, listed⟩
        -- A candidate is its directory and a name behind it.
        have twin : String.ofList ((Stem.ofName place.name.toList).name ++ ext) ∈
            (Stem.ofName place.name.toList).twins ext := List.mem_cons_self
        have among := List.mem_map_of_mem (f := Path.components) ((all _).mpr ⟨_, twin, rfl⟩)
        rw [same, List.mem_map] at among
        obtain ⟨p, mem', alike'⟩ := among
        obtain ⟨file, twin', rfl⟩ := joined p mem'
        rw [Path.components_join_name _ (Stem.isName_of_mem_twins free mem twin'),
          Path.components_join_name _ (Stem.isName_of_mem_twins free mem twin)] at alike'
        exact (List.append_inj' alike' (by simp)).1

theorem extensions_ne_nil (name : List Char) : ∃ ext, ext ∈ (Stem.ofName name).extensions := by
  unfold Stem.ofName
  split
  · exact ⟨_, List.mem_cons_self⟩
  · exact ⟨_, List.mem_cons_self⟩

theorem alike_iff {there : Option Url} :
    (∀ index text fromImport, ((resolveAt here fromImport).eval (.ofIndex index text)).Alike
        ((resolveAt there fromImport).eval (.ofIndex index text))) ↔ here.bind spot? = there.bind spot? := by
  refine ⟨fun alike => ?_, fun same index text => alike_of_spot index text same⟩
  have here_there (dir : Path) (files : List String) : ((resolveAt here false).eval (viewOf dir files)).Alike
      ((resolveAt there false).eval (viewOf dir files)) := by
    rw [viewOf]
    exact alike _ _ false
  have there_here (dir : Path) (files : List String) : ((resolveAt there false).eval (viewOf dir files)).Alike
      ((resolveAt here false).eval (viewOf dir files)) := (here_there dir files).symm
  have spotted (o : Option Url) : o.bind spot? =
      (o.bind Place.ofUrl?).map fun place => (place.directory.components, place.name) := by
    cases o <;> rfl
  rw [spotted, spotted]
  cases found : here.bind Place.ofUrl? with
  | none =>
    cases found' : there.bind Place.ofUrl? with
    | none => rfl
    | some place =>
      obtain ⟨ext, mem⟩ := extensions_ne_nil place.name.toList
      obtain ⟨other, found'', _⟩ := exists_place_of_alike found' there_here mem
      simp [found] at found''
  | some place =>
    obtain ⟨ext, mem⟩ := extensions_ne_nil place.name.toList
    obtain ⟨other, found', dirs, stem, _⟩ := exists_place_of_alike found here_there mem
    have name : other.name = place.name := by
      refine String.toList_inj.mp (Stem.name_eq stem (fun ext mem => ?_) fun ext mem => ?_)
      · obtain ⟨again, found'', _, _, listed⟩ := exists_place_of_alike found' there_here mem
        obtain rfl := Option.some.inj (found.symm.trans found'')
        exact listed
      · obtain ⟨again, found'', _, _, listed⟩ := exists_place_of_alike found here_there mem
        obtain rfl := Option.some.inj (found'.symm.trans found'')
        exact listed
    rw [found', Option.map_some, Option.map_some, dirs, name]

end Resolver

end StylesheetImports
