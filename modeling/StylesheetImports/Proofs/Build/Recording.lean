import StylesheetImports.Proofs.Build.Asking
import StylesheetImports.Proofs.Build.Load

set_option autoImplicit false

namespace StylesheetImports

namespace SourceMaps

theorem get?_record (m : SourceMaps) (location other : Url) (map : OffsetMap) :
    (m.record location map).get? other = if other = location then some map else m.get? other :=
  lookup_replace m.entries location other map

end SourceMaps

namespace Query

variable {A B : Type} (fixed : Answers Id)

def reports : Query A -> List (Url × OffsetMap)
  | .done _ => []
  | .directory memory dir next => (next (fixed.directory memory dir)).reports
  | .text file next => (next (fixed.text file)).reports
  | .record location map next => (location, map) :: next.reports

@[simp] theorem reports_done (a : A) : (Query.done a).reports fixed = [] := rfl

@[simp] theorem reports_bind (q : Query A) (f : A -> Query B) :
    (q.bind f).reports fixed = q.reports fixed ++ (f (q.answer fixed)).reports fixed := by
  induction q with
  | done a => rfl
  | directory memory dir next ih => exact ih _
  | text file next ih => exact ih _
  | record location map next ih => exact congrArg _ ih

end Query

namespace Rebaser

variable {fixed : Answers Id} {r : Rebaser} {location : Url}

theorem load_cases (fixed : Answers Id) (r : Rebaser) (location : Url) :
    (r.load location).answer fixed = none ∧ (r.load location).reports fixed = [] ∨
      ∃ path text, location.toPath? = some path ∧ fixed.text path = some text ∧
        (r.load location).answer fixed = some (r.loaded location path text) ∧
        (r.load location).reports fixed =
          if r.reports && 0 < (r.rebase text (path.parent?.getD "/")).2.length then
            [(location, (r.rebase text (path.parent?.getD "/")).2)]
          else [] := by
  rw [answer_load]
  unfold load
  cases location.toPath? with
  | none => exact .inl ⟨rfl, rfl⟩
  | some path =>
    simp only [Query.bind_eq, Query.reports_bind, Query.answer_read, Option.bind_some]
    cases holds : fixed.text path with
    | none => exact .inl ⟨rfl, rfl⟩
    | some text =>
      refine .inr ⟨path, text, rfl, holds, rfl, ?_⟩
      dsimp only
      cases r.reports && decide (0 < (r.rebase text (path.parent?.getD "/")).2.length) <;> rfl

theorem loadFirst_none (failed : (r.load location).answer fixed = none)
    (silent : (r.load location).reports fixed = []) (count : Nat) :
    (Importers.loadFirst r location count).answer fixed = none ∧
      (Importers.loadFirst r location count).reports fixed = [] := by
  induction count with
  | zero => exact ⟨rfl, rfl⟩
  | succ count ih =>
    simp only [Importers.loadFirst, Query.bind_eq, Query.answer_bind, Query.reports_bind, failed, silent]
    exact ih

theorem loadFirst_some {loaded : Loaded} (loads : (r.load location).answer fixed = some loaded) (count : Nat) :
    (Importers.loadFirst r location (count + 1)).answer fixed = some loaded ∧
      (Importers.loadFirst r location (count + 1)).reports fixed = (r.load location).reports fixed := by
  simp only [Importers.loadFirst, Query.bind_eq, Query.answer_bind, Query.reports_bind, loads]
  exact ⟨rfl, List.append_nil _⟩

end Rebaser

namespace Engine

theorem load_eq (fixed : Answers Id) (e : Engine) (location : Url) :
    (e.importers.load location).answer fixed = (e.rebaser.load location).answer fixed ∧
      (e.importers.load location).reports fixed = (e.rebaser.load location).reports fixed := by
  obtain ⟨count, some⟩ : ∃ count, e.importers.resolvers.length = count + 1 := by
    simp [importers, resolvers]
  rw [Importers.load, some]
  rcases Rebaser.load_cases fixed e.rebaser location with ⟨failed, silent⟩ | ⟨path, text, _, _, loads, _⟩
  · rw [failed, silent]
    exact Rebaser.loadFirst_none failed silent _
  · rw [loads]
    exact Rebaser.loadFirst_some loads count

theorem reports_of_build {config : Config} {entryDir : Option Path} {finder : Option Finder} {e : Engine}
    (built : build config entryDir finder = .ok e) : e.rebaser.reports = config.sourceMaps := by
  unfold build at built
  split at built
  · cases built
  · cases built
    rfl

end Engine

/-- What may happen to the files while a build loads stylesheets. -/
inductive Change where
  | addFile (path : Path) (text : String)
  | addDirectory (path : Path)
  | removeFile (path : Path)
  | load (location : Url)

namespace Session

variable {A : Type}

theorem build?_setBuild (s : Session) (name other : String) (b : Build) :
    (s.setBuild name b).build? other = if other = name then some b else s.build? other :=
  lookup_replace s.builds name other b

theorem builds_lookup (ref : CacheRef) (dir : Path) (s : Session) : (lookup ref dir s).2.builds = s.builds := by
  have remembering (t : Session) (d : Directory) : (t.remember ref dir d).builds = t.builds := by cases ref <;> rfl
  rcases lookup_cases ref dir s with ⟨d, _, same⟩ | ⟨_, _, same⟩ | ⟨d, _, _, same⟩ <;> rw [same]
  · rfl
  · exact remembering s.counted d

theorem builds_directory (ref : CacheRef) (memory : Memory) (dir : Path) (s : Session) :
    (directory ref memory dir s).2.builds = s.builds := by
  cases memory with
  | own => exact builds_lookup ref dir s
  | common => exact builds_lookup s.cache dir s

theorem build?_ask (ref : CacheRef) {name : String} (q : Query A) {s : Session} {b : Build}
    (here : s.build? name = some b) :
    (s.ask ref name q).2.build? name = some
      { b with maps := (q.reports (s.told ref)).foldl (fun maps (u, map) => maps.record u map) b.maps } := by
  unfold ask
  induction q generalizing s b with
  | done a => exact here
  | directory memory dir next ih =>
    obtain ⟨answer, alike⟩ := directory_alike ref memory dir s
    have stays : (directory ref memory dir s).2.build? name = some b := by
      rw [build?, builds_directory]
      exact here
    have later := ih (directory ref memory dir s).1 stays
    rw [alike.told ref, answer] at later
    rw [Query.reports, ← later, ← answer]
    rfl
  | text file next ih =>
    have stays : (read file s).2.build? name = some b := here
    have later := ih (read file s).1 stays
    rw [(read_alike file s).2.told ref] at later
    exact later
  | record location map next ih =>
    have recorded : (record name location map s).2.build? name =
        some { b with maps := b.maps.record location map } := by
      simp [record, here, build?_setBuild]
    have later := ih recorded
    rw [(record_alike name location map s).told ref] at later
    exact later

def map? (s : Session) (name : String) (location : Url) : Option OffsetMap :=
  (s.build? name).bind fun b => b.maps.get? location

def load (name : String) (location : Url) : StateM Session (Option Loaded) := fun s =>
  match s.build? name with
  | none => (none, s)
  | some b => s.ask b.cache name (b.engine.importers.load location)

def change (name : String) (s : Session) : Change -> Session
  | .addFile path text => { s with files := s.files.addFile path text }
  | .addDirectory path => { s with files := s.files.addDirectory path }
  | .removeFile path => { s with files := (s.files.removeFile path).2 }
  | .load location => (load name location s).2

def changed (name : String) (s : Session) (changes : List Change) : Session :=
  changes.foldl (change name) s

def Replaces (name : String) (location : Url) (s : Session) : Prop :=
  ∃ loaded, (load name location s).1 = some loaded ∧ 0 < loaded.replacements

/-- Some load of a location replaced something while the changes happened. -/
def Replaced (name : String) (location : Url) : Session -> List Change -> Prop
  | _, [] => False
  | s, c :: changes =>
    c = .load location ∧ s.Replaces name location ∨ Replaced name location (s.change name c) changes

variable {name : String} {s : Session} {engine : Engine} {cache : CacheRef} {maps : SourceMaps}

theorem change_build? (here : s.build? name = some { engine, cache, maps }) (c : Change) :
    ∃ maps, (s.change name c).build? name = some { engine, cache, maps } := by
  cases c with
  | load location =>
    rw [change, load, here]
    exact ⟨_, build?_ask _ _ here⟩
  | _ => exact ⟨maps, here⟩

theorem changed_build? (here : s.build? name = some { engine, cache, maps }) (changes : List Change) :
    ∃ maps, (s.changed name changes).build? name = some { engine, cache, maps } := by
  induction changes generalizing s maps with
  | nil => exact ⟨maps, here⟩
  | cons c changes ih =>
    obtain ⟨later, next⟩ := change_build? here c
    exact ih next

theorem load_cases (here : s.build? name = some { engine, cache, maps }) (reporting : engine.rebaser.reports = true)
    (location : Url) :
    (load name location s).1 = none ∧ (∀ other, (load name location s).2.map? name other = s.map? name other) ∨
      ∃ path text, location.toPath? = some path ∧ s.files.text? path = some text ∧
        (load name location s).1 = some (engine.rebaser.loaded location path text) ∧
        ∀ other, (load name location s).2.map? name other =
          if other = location ∧ 0 < (engine.rebaser.loaded location path text).replacements then
            some (engine.rebaser.rebase text (path.parent?.getD "/")).2
          else s.map? name other := by
  have asked : load name location s = s.ask cache name (engine.importers.load location) := by rw [load, here]
  obtain ⟨answer, reports⟩ := Engine.load_eq (s.told cache) engine location
  have told := (ask_alike cache name (engine.importers.load location) s).1
  have recorded := build?_ask cache (engine.importers.load location) here
  rw [answer] at told
  rw [reports] at recorded
  rw [asked, told]
  simp only [map?, recorded, here, Option.bind_some]
  rcases Rebaser.load_cases (s.told cache) engine.rebaser location with
    ⟨failed, silent⟩ | ⟨path, text, there, holds, loads, reported⟩
  · refine .inl ⟨failed, fun other => ?_⟩
    rw [silent]
    rfl
  · refine .inr ⟨path, text, there, holds, loads, fun other => ?_⟩
    rw [reported, reporting, Bool.true_and]
    change _ = if other = location ∧ 0 < (engine.rebaser.rebase text (path.parent?.getD "/")).2.length then _ else _
    by_cases replaced : 0 < (engine.rebaser.rebase text (path.parent?.getD "/")).2.length
    · simp only [replaced, decide_true, if_true, List.foldl_cons, List.foldl_nil, SourceMaps.get?_record, and_true]
    · simp only [replaced, decide_false, Bool.false_eq_true, if_false, List.foldl_nil, and_false]

theorem change_map? (here : s.build? name = some { engine, cache, maps }) (reporting : engine.rebaser.reports = true)
    (c : Change) (location : Url) :
    ((s.change name c).map? name location).isSome ↔
      (s.map? name location).isSome ∨ c = .load location ∧ s.Replaces name location := by
  cases c with
  | load other =>
    rw [change]
    rcases load_cases here reporting other with ⟨failed, stays⟩ | ⟨path, text, _, _, loads, entry⟩
    · rw [stays]
      constructor
      · exact .inl
      · rintro (held | ⟨same, loaded, loads, _⟩)
        · exact held
        · rw [Change.load.inj same, loads] at failed
          cases failed
    · rw [entry]
      by_cases same : location = other
      · subst same
        simp only [Replaces, loads, true_and, Option.some.injEq, exists_eq_left']
        split <;> simp [*]
      · simp [same, Ne.symm same]
  | _ => exact ⟨.inl, fun held => held.resolve_right (fun loads => nomatch loads.1)⟩

theorem changed_map? (here : s.build? name = some { engine, cache, maps }) (reporting : engine.rebaser.reports = true)
    (changes : List Change) (location : Url) :
    ((s.changed name changes).map? name location).isSome ↔
      (s.map? name location).isSome ∨ Replaced name location s changes := by
  induction changes generalizing s maps with
  | nil => simp [changed, Replaced]
  | cons c changes ih =>
    obtain ⟨_, next⟩ := change_build? here c
    have later := ih next
    rw [change_map? here reporting, or_assoc] at later
    exact later

/-- After a load that returns content, the map that the build holds for the location is that of this load exactly
when this load, or else no load before it, replaced something. Other locations keep what they had. -/
theorem load_records {config : Config} {entryDir : Option Path} {finder : Option Finder} {engine : Engine}
    (built : Engine.build config entryDir finder = .ok engine) (enabled : config.sourceMaps = true) (s : Session)
    (name : String) (cache : CacheRef) (changes : List Change) (location : Url) :
    let start := s.addBuild name engine cache
    let before := start.changed name changes
    let after := (load name location before).2
    (∀ other, other ≠ location -> after.map? name other = before.map? name other) ∧
      ((load name location before).1 = none -> after.map? name location = before.map? name location) ∧
      ∀ loaded, (load name location before).1 = some loaded ->
        ∃ path text map, location.toPath? = some path ∧ before.files.text? path = some text ∧
          engine.rebaser.rebase text (path.parent?.getD "/") = (loaded.content, map) ∧
          loaded.replacements = map.length ∧
          after.map? name location = (if 0 < map.length then some map else before.map? name location) ∧
          (((after.map? name location).isSome ↔ 0 < loaded.replacements) ∧
              (∀ held, after.map? name location = some held -> held = map) ↔
            0 < loaded.replacements ∨ ¬ Replaced name location start changes) := by
  intro start before after
  have fresh : start.build? name = some { engine, cache, maps := .empty } := by
    simp [start, addBuild, build?_setBuild]
  have reporting : engine.rebaser.reports = true := (Engine.reports_of_build built).trans enabled
  obtain ⟨_, here⟩ := changed_build? fresh changes
  have held : (before.map? name location).isSome ↔ Replaced name location start changes := by
    have empty : start.map? name location = none := by
      rw [map?, fresh]
      rfl
    simpa [empty] using changed_map? fresh reporting changes location
  rcases load_cases here reporting location with ⟨failed, stays⟩ | ⟨path, text, there, holds, loads, entry⟩
  · refine ⟨fun other _ => stays other, fun _ => stays location, fun loaded loads => ?_⟩
    rw [loads] at failed
    cases failed
  · refine ⟨fun other apart => (entry other).trans (if_neg fun both => apart both.1), fun failed => ?_, ?_⟩
    · rw [loads] at failed
      cases failed
    · intro loaded same
      obtain rfl := Option.some.inj (loads.symm.trans same)
      have now := entry location
      simp only [true_and] at now
      refine ⟨path, text, _, there, holds, rfl, rfl, now, ?_⟩
      rw [← held]
      change after.map? name location = _ at now
      rw [now]
      by_cases replaced : 0 < (engine.rebaser.loaded location path text).replacements
      · rw [if_pos replaced]
        exact iff_of_true ⟨by simpa using replaced, fun held same => (Option.some.inj same).symm⟩ (.inl replaced)
      · rw [if_neg replaced]
        change (((before.map? name location).isSome ↔ _) ∧ ∀ held, before.map? name location = some held -> _) ↔ _
        cases before.map? name location <;> simp [replaced]

-- A stylesheet is loaded, loses the reference that was replaced in it, and may then be loaded again.
def sheetLocation : Url :=
  Url.ofSegments ["w".toList, "s".toList, "a.scss".toList]

def edited : List Change :=
  [.addFile "/w/s/a.scss" "a\x7bb:url(x.png)\x7d", .load sheetLocation, .addFile "/w/s/a.scss" "a\x7bb:c\x7d"]

def reporting : Config :=
  { Config.default with entry := some "/w/main.scss", sourceMaps := true }

def reportingEngine : Engine :=
  { config := reporting
    rebaser := Rebaser.anchored "/w" reporting.packageMarks true
    finder := Package.installed reporting.packageMarks }

def reportingBuild : Session :=
  (start true).addBuild "main" reportingEngine (.slot 0)

theorem load_records_edited :
    Engine.build reporting none none = .ok reportingEngine ∧ reporting.sourceMaps = true ∧
      ((load "main" sheetLocation (reportingBuild.changed "main" (edited.take 1))).2.map?
        "main" sheetLocation).isSome := by
  have built : Engine.build reporting none none = .ok reportingEngine := rfl
  have enabled : reporting.sourceMaps = true := rfl
  have loads : (load "main" sheetLocation (reportingBuild.changed "main" (edited.take 1))).1 =
      some (reportingEngine.rebaser.loaded sheetLocation "/w/s/a.scss" "a\x7bb:url(x.png)\x7d") := by decide +kernel
  have replaced :
      0 < (reportingEngine.rebaser.loaded sheetLocation "/w/s/a.scss" "a\x7bb:url(x.png)\x7d").replacements := by
    decide +kernel
  obtain ⟨_, _, records⟩ :=
    load_records built enabled (start true) "main" (.slot 0) (edited.take 1) sheetLocation
  obtain ⟨_, _, _, _, _, _, _, _, current⟩ := records _ loads
  exact ⟨built, enabled, (current.mpr (.inl replaced)).1.mpr replaced⟩

-- The file is loaded again and nothing in it is replaced, and the map of its earlier text is still
-- there.
theorem load_keeps_stale_map :
    ∃ loaded map, (load "main" sheetLocation (reportingBuild.changed "main" edited)).1 = some loaded ∧
      loaded.content = "a\x7bb:c\x7d" ∧ loaded.replacements = 0 ∧
      (load "main" sheetLocation (reportingBuild.changed "main" edited)).2.map? "main" sheetLocation = some map := by
  refine ⟨reportingEngine.rebaser.loaded sheetLocation "/w/s/a.scss" "a\x7bb:c\x7d",
    (reportingEngine.rebaser.rebase "a\x7bb:url(x.png)\x7d" "/w/s").2, ?_⟩
  decide +kernel

end Session

end StylesheetImports
