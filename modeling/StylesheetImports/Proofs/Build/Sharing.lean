import StylesheetImports.Proofs.Build.Asking

set_option autoImplicit false

namespace StylesheetImports

/-- A question about a directory, under its normal path: what was answered, what the files listed at that time,
and whether they were asked. -/
structure Lookup where
  dir : Path
  answer : Option Directory
  now : Option Directory
  listed : Bool

def Lookup.listing? (l : Lookup) : Option (Path × Directory) :=
  if l.listed then l.now.map fun d => (l.dir, d) else none

namespace Session

variable {A : Type}

def asked (s : Session) (ref : CacheRef) (memory : Memory) (dir : Path) : Lookup :=
  { dir := dir.normalize
    answer := (directory ref memory dir s).1
    now := s.current dir
    listed := s.files.listings < (directory ref memory dir s).2.files.listings }

def lookups (ref : CacheRef) (name : String) : Query A -> Session -> List Lookup
  | .done _, _ => []
  | .directory memory dir next, s =>
    s.asked ref memory dir :: lookups ref name (next (directory ref memory dir s).1) (directory ref memory dir s).2
  | .text file next, s => lookups ref name (next (read file s).1) (read file s).2
  | .record location map next, s => lookups ref name next (record name location map s).2

end Session

/-- What may happen to the files and the cache. A call of a resolver, of whatever kind and on behalf of whatever
build, is a question. -/
inductive Event where
  | addFile (path : Path) (text : String)
  | addDirectory (path : Path)
  | removeFile (path : Path)
  | addBuild (name : String) (engine : Engine)
  | clear
  | ask {A : Type} (name : String) (q : Query A)

/-- A session and the questions about directories since its cache was cleared. -/
structure Run where
  session : Session
  since : List Lookup

namespace Run

variable {A : Type}

def step (r : Run) : Event -> Run
  | .addFile path text => { r with session := { r.session with files := r.session.files.addFile path text } }
  | .addDirectory path => { r with session := { r.session with files := r.session.files.addDirectory path } }
  | .removeFile path => { r with session := { r.session with files := (r.session.files.removeFile path).2 } }
  | .addBuild name engine => { r with session := r.session.addBuild name engine (.slot 0) }
  | .clear => { session := r.session.clearCache, since := [] }
  | .ask name q =>
    { session := (r.session.ask (.slot 0) name q).2
      since := r.since ++ r.session.lookups (.slot 0) name q }

def after (r : Run) (events : List Event) : Run :=
  events.foldl step r

-- The first time that a directory was asked for and found.
def first? (r : Run) (dir : Path) : Option Lookup :=
  r.since.find? fun l => l.dir = dir.normalize && l.answer.isSome

def listings (r : Run) : List (Path × Directory) :=
  r.since.filterMap Lookup.listing?

/-- Each directory as it was listed when it was first found, or else as it is listed now. -/
def frozen (r : Run) : View :=
  { directory := fun dir =>
      match r.first? dir with
      | some l => l.now
      | none => r.session.current dir
    text := r.session.files.text? }

/-- The cache holds what was listed and nothing else, and that is what was found first. -/
structure Faithful (r : Run) : Prop where
  cache : r.session.cache = .slot 0
  held : r.session.caches[0]? = some { entries := r.listings.reverse }
  once : (r.listings.map (·.1)).Nodup
  first : ∀ dir : Path, (r.first? dir).map (·.now) = (r.listings.reverse.lookup dir.normalize).map some

variable {r : Run}

theorem Faithful.remembered (h : r.Faithful) (dir : Path) :
    r.session.remembered (.slot 0) dir = r.listings.reverse.lookup dir.normalize := by
  rw [Session.remembered, h.held]
  rfl

theorem Faithful.told (h : r.Faithful) : r.session.told (.slot 0) = r.frozen.answers := by
  have same (memory : Memory) : r.session.cacheOf (.slot 0) memory = .slot 0 := by
    cases memory
    · rfl
    · exact h.cache
  have directory (dir : Path) : r.session.known (.slot 0) dir = r.frozen.directory dir := by
    have first := h.first dir
    rw [Session.known, h.remembered, frozen]
    cases found : r.first? dir with
    | none =>
      rw [found] at first
      simp only [found, Option.map_eq_none_iff.mp first.symm, Option.none_or]
    | some l =>
      rw [found] at first
      obtain ⟨d, held, now⟩ := Option.map_eq_some_iff.mp first.symm
      simp only [found, held, Option.some_or]
      exact now
  simp only [Session.told, View.answers, same, directory]
  rfl

def look (r : Run) (memory : Memory) (dir : Path) : Run :=
  { session := (Session.directory (.slot 0) memory dir r.session).2
    since := r.since ++ [r.session.asked (.slot 0) memory dir] }

theorem listings_look (r : Run) (memory : Memory) (dir : Path) :
    (r.look memory dir).listings = r.listings ++ (r.session.asked (.slot 0) memory dir).listing?.toList := by
  rw [listings, look, List.filterMap_append, listings]
  cases h : (r.session.asked (.slot 0) memory dir).listing? <;> simp [h]

theorem first?_look (r : Run) (memory : Memory) (dir other : Path) :
    (r.look memory dir).first? other = (r.first? other).or
      (if dir.normalize = other.normalize ∧ (r.session.asked (.slot 0) memory dir).answer.isSome then
        some (r.session.asked (.slot 0) memory dir) else none) := by
  rw [first?, look, List.find?_append, first?, List.find?_singleton]
  simp only [Bool.and_eq_true, decide_eq_true_eq]
  rfl

theorem Faithful.of_same (h : r.Faithful) {r' : Run} (cache : r'.session.cache = r.session.cache)
    (caches : r'.session.caches = r.session.caches) (listings : r'.listings = r.listings)
    (first : ∀ dir, r'.first? dir = r.first? dir) : r'.Faithful where
  cache := cache.trans h.cache
  held := by rw [caches, listings, h.held]
  once := listings ▸ h.once
  first := fun dir => by rw [first, listings, h.first]

theorem Faithful.look (h : r.Faithful) (memory : Memory) (dir : Path) : (r.look memory dir).Faithful := by
  have ref : Session.directory (.slot 0) memory dir r.session = Session.lookup (.slot 0) dir r.session := by
    cases memory with
    | own => rfl
    | common => simp only [Session.directory, h.cache]
  have remembered := h.remembered dir
  rcases Session.lookup_cases (.slot 0) dir r.session with
    ⟨d, known, same⟩ | ⟨unknown, now, same⟩ | ⟨d, unknown, now, same⟩
  · -- Answered from memory: it was found before, and the files are not asked.
    rw [← ref] at same
    have listings : (r.look memory dir).listings = r.listings := by
      rw [listings_look]
      simp [Session.asked, same, Lookup.listing?]
    have session : (r.look memory dir).session = r.session := by rw [Run.look, same]
    refine h.of_same (by rw [session]) (by rw [session]) listings fun other => ?_
    rw [first?_look]
    by_cases spelled : dir.normalize = other.normalize
    · have first := h.first other
      rw [← spelled, ← remembered, known] at first
      obtain ⟨l, found, _⟩ := Option.map_eq_some_iff.mp first
      rw [found, Option.some_or]
    · rw [if_neg (fun both => spelled both.1), Option.or_none]
  · -- Listed in vain: nothing is found and nothing is stored.
    rw [← ref] at same
    have listings : (r.look memory dir).listings = r.listings := by
      rw [listings_look]
      simp [Session.asked, now, Lookup.listing?]
    have session : (r.look memory dir).session = r.session.counted := by rw [Run.look, same]
    refine h.of_same (by rw [session]; rfl) (by rw [session]; rfl) listings fun other => ?_
    rw [first?_look, if_neg (by simp [Session.asked, same]), Option.or_none]
  · -- Listed and stored: it was not found before.
    rw [← ref] at same
    have asked : r.session.asked (.slot 0) memory dir =
        { dir := dir.normalize, answer := some d, now := some d, listed := true } := by
      simp [Session.asked, same, now, Session.remember, Session.counted]
    have listings : (r.look memory dir).listings = r.listings ++ [(dir.normalize, d)] := by
      rw [listings_look, asked]
      rfl
    have session : (r.look memory dir).session = r.session.counted.remember (.slot 0) dir d := by
      rw [Run.look, same]
    rw [unknown] at remembered
    have new : ∀ entry ∈ r.listings, entry.1 ≠ dir.normalize := by
      intro entry mem equal
      have apart := List.lookup_eq_none_iff.mp remembered.symm entry (List.mem_reverse.mpr mem)
      simp [equal] at apart
    refine ⟨session ▸ h.cache, ?_, ?_, fun other => ?_⟩
    · have stored : DirectoryCache.set { entries := r.listings.reverse } dir d =
          { entries := (dir.normalize, d) :: r.listings.reverse } :=
        DirectoryCache.set_new (fun entry mem => new entry (List.mem_reverse.mp mem)) d
      have held : r.session.counted.caches[0]? = some { entries := r.listings.reverse } := h.held
      rw [session, listings, Session.remember, List.getElem?_modify, held, List.reverse_append]
      simp only [if_true, Option.map_eq_map, Option.map_some, stored]
      rfl
    · rw [listings, List.map_append, List.nodup_append]
      refine ⟨h.once, List.nodup_cons.mpr ⟨List.not_mem_nil, List.nodup_nil⟩, fun key mem other last => ?_⟩
      obtain ⟨entry, held, rfl⟩ := List.mem_map.mp mem
      rw [List.map_singleton, List.mem_singleton] at last
      exact last ▸ new entry held
    · have first := h.first other
      rw [listings, first?_look, asked, List.reverse_append, List.reverse_singleton, List.singleton_append,
        List.lookup_cons]
      by_cases spelled : dir.normalize = other.normalize
      · rw [← spelled, ← remembered] at first
        rw [Option.map_eq_none_iff.mp first, if_pos ⟨spelled, rfl⟩, spelled, beq_self_eq_true]
        rfl
      · rw [if_neg (fun both => spelled both.1), Option.or_none, first, beq_false_of_ne (Ne.symm spelled)]

theorem Faithful.ask (h : r.Faithful) (name : String) (q : Query A) : (r.step (.ask name q)).Faithful := by
  obtain ⟨s, since⟩ := r
  -- Along the question, with one question about a directory after the other.
  induction q generalizing s since with
  | done a =>
    rw [Run.step, Session.lookups, List.append_nil]
    exact h
  | directory memory dir next ih =>
    have later := ih (Session.directory (.slot 0) memory dir s).1 _ _ (h.look memory dir)
    simp only [Run.step, Session.lookups, List.append_assoc, List.singleton_append] at later ⊢
    exact later
  | text file next ih =>
    have read : ({ session := (Session.read file s).2, since } : Run).Faithful := ⟨h.cache, h.held, h.once, h.first⟩
    exact ih (Session.read file s).1 _ _ read
  | record location map next ih =>
    have caches : (Session.record name location map s).2.caches = s.caches ∧
        (Session.record name location map s).2.cache = s.cache := by
      unfold Session.record
      split <;> exact ⟨rfl, rfl⟩
    have recorded : ({ session := (Session.record name location map s).2, since } : Run).Faithful :=
      ⟨caches.2 ▸ h.cache, caches.1 ▸ h.held, h.once, h.first⟩
    exact ih _ _ recorded

theorem Faithful.step (h : r.Faithful) (event : Event) : (r.step event).Faithful := by
  cases event with
  | ask name q => exact h.ask name q
  | clear =>
    refine ⟨h.cache, ?_, List.nodup_nil, fun dir => rfl⟩
    simp only [Run.step, Session.clearCache, List.getElem?_modify, h.held]
    rfl
  | _ => exact ⟨h.cache, h.held, h.once, h.first⟩

theorem Faithful.after (h : r.Faithful) (events : List Event) : (r.after events).Faithful := by
  induction events generalizing r with
  | nil => exact h
  | cons event events ih => exact ih (h.step event)

theorem faithful_start {s : Session} (cache : s.cache = .slot 0) (fresh : s.caches[0]? = some .empty) :
    Faithful { session := s, since := [] } :=
  ⟨cache, fresh, List.nodup_nil, fun _ => rfl⟩

/-- Whatever happens to the files and whoever asks, each question gets the answer of the frozen view, no directory
is listed twice before the cache is cleared, and the cache holds the directories that were listed and no others. -/
theorem ask_frozen {s : Session} (cache : s.cache = .slot 0) (fresh : s.caches[0]? = some .empty)
    (events : List Event) :
    let r := Run.after { session := s, since := [] } events
    (∀ {A : Type} (name : String) (q : Query A), (r.session.ask (.slot 0) name q).1 = q.eval r.frozen) ∧
      (r.listings.map (·.1)).Nodup ∧ r.session.caches[0]? = some { entries := r.listings.reverse } := by
  intro r
  have faithful : r.Faithful := (faithful_start cache fresh).after events
  refine ⟨fun name q => ?_, faithful.once, faithful.held⟩
  rw [(Session.ask_alike (.slot 0) name q r.session).1, faithful.told, Query.eval_eq_answer]

-- A file is asked for, goes away, and is asked for again before the cache is cleared.
def goneFile : List Event :=
  [.addFile "/d/_a.scss" "", .ask "b" (Resolver.relative "/d/a" false), .removeFile "/d/_a.scss"]

theorem ask_frozen_goneFile :
    (Session.start true).cache = .slot 0 ∧ (Session.start true).caches[0]? = some .empty ∧
      ((Run.after { session := .start true, since := [] } goneFile).session.ask (.slot 0) "b"
        (Resolver.relative "/d/./a" false)).1 = .found (Url.ofSegments ["d".toList, "_a.scss".toList]) ∧
      (Run.after { session := .start true, since := [] } goneFile).listings =
        [(Path.ofString "/d", { files := ["_a.scss"], directories := [] })] := by
  have cache : (Session.start true).cache = .slot 0 := rfl
  have fresh : (Session.start true).caches[0]? = some .empty := rfl
  have told := (ask_frozen cache fresh goneFile).1 "b" (Resolver.relative "/d/./a" false)
  exact ⟨cache, fresh, told.trans (by decide +kernel), by decide +kernel⟩

end Run

end StylesheetImports
