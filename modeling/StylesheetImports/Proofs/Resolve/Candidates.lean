import Mathlib.Data.Finset.Card
import StylesheetImports.Proofs.Url.File
import StylesheetImports.Resolve.Candidates

set_option autoImplicit false

namespace StylesheetImports

namespace Stem

-- A name that is no shorter name with the extension of a stylesheet behind it.
def IsWhole (name : List Char) : Prop :=
  ∀ ext ∈ known, ∀ short, short ≠ [] -> name ≠ short ++ ext

-- A name is split at the extension of a stylesheet; one without it may have each of them.
def Splits (s : Stem) (name : List Char) : Prop :=
  (∃ ext ∈ known, s.name ≠ [] ∧ name = s.name ++ ext ∧ s.extensions = [ext]) ∨
    IsWhole name ∧ s = { name, extensions := known }

/-- Whether a file has the name of a stem with `mark` and an extension behind it, or is a partial of that name. -/
def Means (s : Stem) (mark : List Char) (file : String) : Prop :=
  ∃ ext ∈ s.extensions, file.toList = s.name ++ mark ++ ext ∨ file.toList = '_' :: s.name ++ mark ++ ext

instance (s : Stem) (mark : List Char) (file : String) : Decidable (s.Means mark file) :=
  inferInstanceAs (Decidable (∃ ext ∈ s.extensions, _ ∨ _))

-- Whether it hangs on a file what a stem means.
def Concerns (s : Stem) (fromImport : Bool) (file : String) : Prop :=
  fromImport = true ∧ s.Means importMark file ∨ s.Means [] file

def listed (s : Stem) (d : Directory) (mark : List Char) : Finset String :=
  d.files.toFinset.filter (s.Means mark)

/-- The files of a directory that a stem means: variants for `@import`, or else the others. -/
def meant (s : Stem) (d : Directory) (fromImport : Bool) : Finset String :=
  let imports := if fromImport then s.listed d importMark else ∅
  if imports = ∅ then s.listed d [] else imports

theorem append_known {a b ext other : List Char} (h : ext ∈ known) (h' : other ∈ known)
    (same : a ++ ext = b ++ other) : a = b ∧ ext = other := by
  have table : ∀ e ∈ known, ∀ f ∈ known, 4 <= e.length ∧ (e.reverse.take 4 = f.reverse.take 4 -> e = f) := by
    decide
  have ends (c e : List Char) (he : e ∈ known) : (c ++ e).reverse.take 4 = e.reverse.take 4 := by
    have long := (table e he e he).1
    rw [List.reverse_append, List.take_append_of_le_length (by simpa using long)]
  have tails := ends a ext h
  rw [same, ends b other h'] at tails
  obtain rfl := (table ext h other h').2 tails.symm
  exact ⟨List.append_cancel_right same, rfl⟩

theorem extension?_eq_some {name ext : List Char} :
    extension? name = some ext ↔ ext ∈ known ∧ ∃ short, short ≠ [] ∧ name = short ++ ext := by
  have reads (e : List Char) : (decide (e.length < name.length) && e.isSuffixOf name) = true ↔
      ∃ short, short ≠ [] ∧ name = short ++ e := by
    rw [Bool.and_eq_true, decide_eq_true_eq, List.isSuffixOf_iff_suffix]
    constructor
    · rintro ⟨longer, short, rfl⟩
      refine ⟨short, ?_, rfl⟩
      rintro rfl
      simp at longer
    · rintro ⟨short, some, rfl⟩
      exact ⟨by simpa using List.length_pos_iff.mpr some, List.suffix_append short e⟩
  constructor
  · intro h
    have test := List.find?_some h
    exact ⟨List.mem_of_find?_eq_some h, (reads ext).mp test⟩
  · rintro ⟨mem, short, some, whole⟩
    cases found : extension? name with
    | none =>
      have not := List.find?_eq_none.mp found ext mem
      exact absurd ((reads ext).mpr ⟨short, some, whole⟩) not
    | some other =>
      have test := List.find?_some found
      obtain ⟨short', _, whole'⟩ := (reads other).mp test
      rw [(append_known (List.mem_of_find?_eq_some found) mem (whole'.symm.trans whole)).2]

theorem extension?_eq_none {name : List Char} : extension? name = none ↔ IsWhole name := by
  rw [Option.eq_none_iff_forall_ne_some]
  constructor
  · exact fun none ext mem short some whole => none ext (extension?_eq_some.mpr ⟨mem, short, some, whole⟩)
  · intro whole ext found
    obtain ⟨mem, short, some, split⟩ := extension?_eq_some.mp found
    exact whole ext mem short some split

instance (name : List Char) : Decidable (IsWhole name) :=
  decidable_of_iff _ extension?_eq_none

theorem splits_iff {s : Stem} {name : List Char} : s.Splits name ↔ s = ofName name := by
  cases found : extension? name with
  | none =>
    have whole := extension?_eq_none.mp found
    constructor
    · rintro (⟨ext, mem, some, split, _⟩ | ⟨_, same⟩)
      · exact absurd split (whole ext mem _ some)
      · rw [same, ofName, found]
    · rintro rfl
      rw [ofName, found]
      exact .inr ⟨whole, rfl⟩
  | some ext =>
    obtain ⟨mem, short, some, split⟩ := extension?_eq_some.mp found
    have stem : ofName name = { name := short, extensions := [ext] } := by
      rw [ofName, found, split]
      simp
    rw [stem]
    constructor
    · rintro (⟨other, mem', some', split', only⟩ | ⟨whole, _⟩)
      · obtain ⟨names, exts⟩ := append_known mem' mem (split'.symm.trans split)
        cases s
        simp_all
      · exact absurd split (whole ext mem short some)
    · rintro rfl
      exact .inl ⟨ext, mem, some, split, rfl⟩

theorem isFileName_of_extension {file : String} {before ext : List Char} (free : '/' ∉ before)
    (h : ext ∈ known) (whole : file.toList = before ++ ext) : IsFileName file := by
  have table : ∀ e ∈ known, '/' ∉ e ∧ 4 <= (Utf8.encode e).length ∧ (Utf8.encode e).getLast? = some 115 := by
    decide
  obtain ⟨freeExt, long, last⟩ := table ext h
  have bytes : Utf8.encode file.toList = Utf8.encode before ++ Utf8.encode ext := by
    rw [whole, Utf8.encode_append]
  have length := congrArg List.length bytes
  rw [List.length_append] at length
  refine ⟨⟨?_, ?_⟩, fun b hb => ?_⟩
  · exact slash_not_mem_encode (by simp [whole, free, freeExt])
  · -- It is longer than the segments that are no names.
    have longer (segment : Bytes) (short : segment.length < 4) : Utf8.encode file.toList ≠ segment := by
      rintro rfl
      omega
    have busy : isIdle (Utf8.encode file.toList) = false := by
      simp [isIdle, longer [] (by decide), longer [dot] (by decide)]
    rw [Component.text, Component.ofSegment?, busy, if_neg (by simp), if_neg (longer _ (by decide))]
  · rw [bytes, List.getLast?_append, last, Option.some_or, Option.some.injEq] at hb
    rw [← hb]
    decide

section

variable {s : Stem} {name : List Char}

theorem extensions_ofName (name : List Char) :
    (∀ ext ∈ (ofName name).extensions, ext ∈ known) ∧ (ofName name).extensions.Nodup := by
  unfold ofName
  split
  next ext found =>
    have mem := (extension?_eq_some.mp found).1
    exact ⟨fun other h => List.mem_singleton.mp h ▸ mem, List.nodup_singleton ext⟩
  next => exact ⟨fun ext h => h, show known.Nodup by decide⟩

theorem mem_candidates {mark : List Char} {file : String} : file ∈ s.candidates mark ↔ s.Means mark file := by
  simp only [candidates, Means, List.mem_flatMap, List.mem_cons, List.not_mem_nil, or_false,
    String.ext_iff, String.toList_ofList]

theorem nodup_candidates (name mark : List Char) : ((ofName name).candidates mark).Nodup := by
  obtain ⟨subset, distinct⟩ := extensions_ofName name
  generalize ofName name = s at subset distinct ⊢
  have behind {e f : List Char} (he : e ∈ s.extensions) (hf : f ∈ s.extensions) {a b : List Char}
      (same : a ++ e = b ++ f) : a = b ∧ e = f := append_known (subset e he) (subset f hf) same
  have partial_ : s.name ++ mark ≠ '_' :: (s.name ++ mark) := fun same => by
    simpa using congrArg List.length same
  rw [candidates, List.nodup_flatMap]
  refine ⟨fun ext mem => ?_, ?_⟩
  · rw [List.nodup_cons, List.mem_singleton, String.ofList_inj]
    refine ⟨fun same => ?_, List.nodup_singleton _⟩
    exact partial_ (by simpa using (behind mem mem same).1)
  · refine distinct.imp_of_mem fun he hf apart => ?_
    intro file left right
    simp only [List.mem_cons, List.not_mem_nil, or_false] at left right
    -- Two names that are the same have the same extension, and those are all different.
    rcases left with rfl | rfl <;> rcases right with same | same <;>
      exact apart (behind he hf (String.ofList_inj.mp same)).2

theorem filter_candidates (d : Directory) (mark : List Char) :
    ((s.candidates mark).filter d.hasFile).toFinset = s.listed d mark := by
  ext file
  simp only [listed, List.toFinset_filter, Finset.mem_filter, List.mem_toFinset, mem_candidates,
    Directory.hasFile, List.contains_iff_mem]
  exact and_comm

theorem hits_meant (name : List Char) (d : Directory) (fromImport : Bool) :
    ((ofName name).hits d fromImport).Nodup ∧
      ((ofName name).hits d fromImport).toFinset = (ofName name).meant d fromImport := by
  generalize same : ofName name = s
  have nodup (mark : List Char) : ((s.candidates mark).filter d.hasFile).Nodup :=
    (same ▸ nodup_candidates name mark).filter _
  have empty (files : List String) : files.toFinset = ∅ ↔ files = [] := List.toFinset_eq_empty_iff files
  unfold hits meant
  cases fromImport with
  | false => exact ⟨nodup [], filter_candidates d []⟩
  | true =>
    simp only [if_true, ← filter_candidates, empty]
    split
    · exact ⟨nodup [], rfl⟩
    · exact ⟨nodup importMark, rfl⟩

theorem hits_congr {d e : Directory} {fromImport : Bool}
    (alike : ∀ file, s.Concerns fromImport file -> (file ∈ d.files ↔ file ∈ e.files)) :
    s.hits d fromImport = s.hits e fromImport := by
  have same (mark : List Char) (concerns : ∀ file, s.Means mark file -> s.Concerns fromImport file) :
      (s.candidates mark).filter d.hasFile = (s.candidates mark).filter e.hasFile := by
    refine List.filter_congr fun file mem => ?_
    rw [Bool.eq_iff_iff, Directory.hasFile, Directory.hasFile, List.contains_iff_mem, List.contains_iff_mem]
    exact alike file (concerns file (mem_candidates.mp mem))
  have plain := same [] fun file means => .inr means
  unfold hits
  cases fromImport with
  | false => simp only [Bool.false_eq_true, if_false, if_true, plain]
  | true =>
    have imports := same importMark fun file means => .inl ⟨rfl, means⟩
    simp only [if_true, imports, plain]

theorem mem_of_mem_meant {d : Directory} {fromImport : Bool} {file : String}
    (h : file ∈ s.meant d fromImport) : file ∈ d.files ∧ s.Concerns fromImport file := by
  have plain (mem : file ∈ s.listed d []) : file ∈ d.files ∧ s.Concerns fromImport file := by
    rw [listed, Finset.mem_filter, List.mem_toFinset] at mem
    exact ⟨mem.1, .inr mem.2⟩
  unfold meant at h
  cases fromImport with
  | false => exact plain h
  | true =>
    simp only [if_true] at h
    split at h
    · exact plain h
    · rw [listed, Finset.mem_filter, List.mem_toFinset] at h
      exact ⟨h.1, .inl ⟨rfl, h.2⟩⟩

theorem exists_of_concerns {fromImport : Bool} {file : String} (h : s.Concerns fromImport file) :
    ∃ mark, (mark = [] ∨ mark = importMark) ∧ s.Means mark file := by
  rcases h with ⟨_, means⟩ | means
  · exact ⟨_, .inr rfl, means⟩
  · exact ⟨_, .inl rfl, means⟩

theorem isFileName_of_concerns {fromImport : Bool} {file : String} (free : '/' ∉ name)
    (h : (ofName name).Concerns fromImport file) : IsFileName file := by
  obtain ⟨mark, marks, ext, mem, means⟩ := exists_of_concerns h
  have known := (extensions_ofName name).1 ext mem
  have free : '/' ∉ (ofName name).name := by
    unfold ofName
    split
    · exact fun slashed => free (List.mem_of_mem_take slashed)
    · exact free
  have freeMark : '/' ∉ mark := by rcases marks with rfl | rfl <;> decide
  obtain ⟨before, freeBefore, whole⟩ : ∃ before, '/' ∉ before ∧ file.toList = before ++ ext := by
    rcases means with plain | underscored
    · exact ⟨_, by simp [free, freeMark], plain⟩
    · exact ⟨'_' :: (ofName name).name ++ mark, by simp [free, freeMark], underscored⟩
  exact isFileName_of_extension freeBefore known whole

end

end Stem

namespace Choice

theorem ofFiles_cases (files : List String) :
    files = [] ∧ ofFiles files = .none ∨
      (∃ file, (files = [file] ∨ 2 <= files.length ∧ files.filter (fun f => !isCss f) = [file]) ∧
        ofFiles files = .one file) ∨
      2 <= files.length ∧ (files.filter fun f => !isCss f).length ≠ 1 ∧ ofFiles files = .several files := by
  match files with
  | [] => exact .inl ⟨rfl, rfl⟩
  | [file] => exact .inr (.inl ⟨file, .inl rfl, rfl⟩)
  | first :: second :: more =>
    have two : 2 <= (first :: second :: more).length := by simp
    rw [ofFiles.eq_3 _ (by simp) (by simp)]
    split
    next only sole => exact .inr (.inl ⟨only, .inr ⟨two, sole⟩, rfl⟩)
    next none =>
      refine .inr (.inr ⟨two, fun length => ?_, rfl⟩)
      obtain ⟨only, sole⟩ := List.length_eq_one_iff.mp length
      exact none only sole

end Choice

end StylesheetImports
