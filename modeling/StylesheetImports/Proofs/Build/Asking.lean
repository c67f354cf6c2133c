import StylesheetImports.Build.Session
import StylesheetImports.Proofs.Storage.MemoryFiles
import StylesheetImports.Proofs.Storage.Query

set_option autoImplicit false

namespace StylesheetImports

namespace DirectoryCache

theorem get?_set (c : DirectoryCache) (dir other : Path) (d : Directory) :
    (c.set dir d).get? other = if other.normalize = dir.normalize then some d else c.get? other :=
  lookup_replace c.entries dir.normalize other.normalize d

theorem set_new {c : DirectoryCache} {dir : Path} (new : ∀ entry ∈ c.entries, entry.1 ≠ dir.normalize)
    (d : Directory) : c.set dir d = { entries := (dir.normalize, d) :: c.entries } := by
  rw [set, List.filter_eq_self.mpr fun entry mem => by simpa using new entry mem]

end DirectoryCache

namespace Session

variable {A : Type}

def current (s : Session) (dir : Path) : Option Directory :=
  (s.files.listing? dir).map Directory.ofListing

-- A directory as it is remembered, or else as it is listed now.
def known (s : Session) (ref : CacheRef) (dir : Path) : Option Directory :=
  (s.remembered ref dir).or (s.current dir)

def cacheOf (s : Session) (ref : CacheRef) : Memory -> CacheRef
  | .own => ref
  | .common => s.cache

def told (s : Session) (ref : CacheRef) : Answers Id :=
  { directory := fun memory dir => s.known (s.cacheOf ref memory) dir
    text := s.files.text?
    record := fun _ _ => () }

structure Alike (s t : Session) : Prop where
  cache : t.cache = s.cache
  known : ∀ ref dir, t.known ref dir = s.known ref dir
  text : ∀ file, t.files.text? file = s.files.text? file

theorem Alike.refl (s : Session) : s.Alike s :=
  ⟨rfl, fun _ _ => rfl, fun _ => rfl⟩

theorem Alike.trans {s t u : Session} (h : s.Alike t) (h' : t.Alike u) : s.Alike u where
  cache := h'.cache.trans h.cache
  known := fun ref dir => (h'.known ref dir).trans (h.known ref dir)
  text := fun file => (h'.text file).trans (h.text file)

theorem Alike.told {s t : Session} (h : s.Alike t) (ref : CacheRef) : t.told ref = s.told ref := by
  have same : t.cacheOf ref = s.cacheOf ref := by
    funext memory
    cases memory
    · rfl
    · exact h.cache
  simp only [Session.told, same, h.known, funext h.text]

theorem remembered_remember (s : Session) (ref other : CacheRef) (dir p : Path) (d : Directory) :
    (s.remember ref dir d).remembered other p = s.remembered other p ∨
      ref = other ∧ p.normalize = dir.normalize ∧ (s.remember ref dir d).remembered other p = some d := by
  cases ref with
  | off => exact .inl rfl
  | slot i =>
    cases other with
    | off => exact .inl rfl
    | slot j =>
      simp only [remembered, remember, List.getElem?_modify]
      by_cases index : i = j
      · subst index
        cases s.caches[i]? with
        | none => exact .inl (by simp)
        | some c =>
          simp only [if_true, Option.map_eq_map, Option.map_some, Option.bind_some, DirectoryCache.get?_set]
          by_cases same : p.normalize = dir.normalize
          · exact .inr ⟨trivial, same, if_pos same⟩
          · exact .inl (if_neg same)
      · refine .inl ?_
        cases s.caches[j]? <;> simp [index]

theorem listing?_congr {m : MemoryFiles} {p q : Path} (h : p.normalize = q.normalize) :
    m.listing? p = m.listing? q := by
  rw [MemoryFiles.listing?, MemoryFiles.listing?, h]

def counted (s : Session) : Session :=
  { s with files := { s.files with listings := s.files.listings + 1 } }

theorem lookup_cases (ref : CacheRef) (dir : Path) (s : Session) :
    (∃ d, s.remembered ref dir = some d ∧ lookup ref dir s = (some d, s)) ∨
      s.remembered ref dir = none ∧ s.current dir = none ∧ lookup ref dir s = (none, s.counted) ∨
      ∃ d, s.remembered ref dir = none ∧ s.current dir = some d ∧
        lookup ref dir s = (some d, s.counted.remember ref dir d) := by
  unfold lookup
  cases remembered : s.remembered ref dir with
  | some d => exact .inl ⟨d, rfl, rfl⟩
  | none =>
    cases now : s.current dir with
    | none =>
      have listed : (s.files.list dir).1.map Directory.ofListing = none := now
      exact .inr (.inl ⟨rfl, rfl, by simp only [populate, listed]; rfl⟩)
    | some d =>
      have listed : (s.files.list dir).1.map Directory.ofListing = some d := now
      exact .inr (.inr ⟨d, rfl, rfl, by simp only [populate, listed]; rfl⟩)

theorem counted_alike (s : Session) : s.Alike s.counted :=
  ⟨rfl, fun _ _ => rfl, fun _ => rfl⟩

theorem remember_alike {s : Session} {ref : CacheRef} {dir : Path} {d : Directory}
    (new : s.remembered ref dir = none) (now : s.current dir = some d) : s.Alike (s.remember ref dir d) := by
  have files : (s.remember ref dir d).files = s.files := by cases ref <;> rfl
  have cache : (s.remember ref dir d).cache = s.cache := by cases ref <;> rfl
  refine ⟨cache, fun other p => ?_, fun file => by rw [files]⟩
  have currentSame : (s.remember ref dir d).current p = s.current p := by rw [current, files]; rfl
  rw [known, currentSame, known]
  -- Only the same directory is remembered anew, and as what it would be listed as.
  rcases remembered_remember s ref other dir p d with same | ⟨rfl, spelled, remembered⟩
  · rw [same]
  · have before : s.remembered ref p = none := by
      cases ref with
      | off => rfl
      | slot i =>
        rw [← new]
        simp only [Session.remembered, DirectoryCache.get?, spelled]
    have nowToo : s.current p = some d := by rw [← now, current, current, listing?_congr spelled]
    rw [remembered, before, nowToo]
    rfl

theorem lookup_alike (ref : CacheRef) (dir : Path) (s : Session) :
    (lookup ref dir s).1 = s.known ref dir ∧ s.Alike (lookup ref dir s).2 := by
  rcases lookup_cases ref dir s with ⟨d, remembered, same⟩ | ⟨remembered, now, same⟩ | ⟨d, remembered, now, same⟩
  · rw [same, known, remembered]
    exact ⟨rfl, .refl s⟩
  · rw [same, known, remembered, now]
    exact ⟨rfl, counted_alike s⟩
  · rw [same, known, remembered, now]
    exact ⟨rfl, (counted_alike s).trans (remember_alike remembered now)⟩

theorem directory_alike (ref : CacheRef) (memory : Memory) (dir : Path) (s : Session) :
    (directory ref memory dir s).1 = (s.told ref).directory memory dir ∧ s.Alike (directory ref memory dir s).2 := by
  cases memory with
  | own => exact lookup_alike ref dir s
  | common => exact lookup_alike s.cache dir s

theorem read_alike (file : Path) (s : Session) :
    (read file s).1 = s.files.text? file ∧ s.Alike (read file s).2 :=
  ⟨rfl, rfl, fun _ _ => rfl, fun _ => rfl⟩

theorem record_alike (name : String) (location : Url) (map : OffsetMap) (s : Session) :
    s.Alike (record name location map s).2 := by
  unfold record
  split
  · exact .refl s
  · exact ⟨rfl, fun _ _ => rfl, fun _ => rfl⟩

theorem ask_alike (ref : CacheRef) (name : String) (q : Query A) (s : Session) :
    (s.ask ref name q).1 = q.answer (s.told ref) ∧ s.Alike (s.ask ref name q).2 := by
  unfold ask
  -- Along the question: the next part of it is put to a session that tells the same.
  induction q generalizing s with
  | done a => exact ⟨rfl, .refl s⟩
  | directory memory dir next ih =>
    obtain ⟨answer, alike⟩ := directory_alike ref memory dir s
    obtain ⟨later, alike'⟩ := ih (directory ref memory dir s).1 (directory ref memory dir s).2
    rw [alike.told ref] at later
    refine ⟨later.trans ?_, alike.trans alike'⟩
    rw [answer]
    rfl
  | text file next ih =>
    obtain ⟨answer, alike⟩ := read_alike file s
    obtain ⟨later, alike'⟩ := ih (read file s).1 (read file s).2
    rw [alike.told ref] at later
    exact ⟨later, alike.trans alike'⟩
  | record location map next ih =>
    have alike := record_alike name location map s
    obtain ⟨later, alike'⟩ := ih (record name location map s).2
    rw [alike.told ref] at later
    exact ⟨later, alike.trans alike'⟩

end Session

end StylesheetImports
