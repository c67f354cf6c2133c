import StylesheetImports.Proofs.Build.Asking
import StylesheetImports.Proofs.Build.Load
import StylesheetImports.Proofs.Build.Web
import StylesheetImports.Proofs.Resolve.Landing
import StylesheetImports.Proofs.Storage.Consistency

set_option autoImplicit false

namespace StylesheetImports

namespace Session

def web (s : Session) (ref : CacheRef) (name : String) (i : Importers) : Web :=
  { load := fun u => (s.ask ref name (i.load u)).1
    answer := fun u spec => (s.ask ref name (i.canonicalizeFrom u spec.value spec.fromImport)).1 }

def locations (s : Session) : List Url :=
  s.files.files.filterMap fun entry => Url.ofPath? entry.1

variable {s : Session} {ref : CacheRef}

theorem told_web (name : String) (i : Importers) : (s.web ref name i).Told i (s.told ref) where
  load := fun u => (ask_alike ref name (i.load u) s).1.symm
  answer := fun u spec => (ask_alike ref name (i.canonicalizeFrom u spec.value spec.fromImport) s).1.symm

theorem exists_of_lists (made : s.files.Made) (empty : ∀ dir, s.remembered ref dir = none) {u : Url}
    (lists : (s.told ref).own.Lists u) :
    u ∈ s.locations ∧ ∃ path text, u.toPath? = some path ∧ s.files.text? path = some text := by
  obtain ⟨dir, d, file, absolute, known, mem, location, back⟩ := lists
  -- Nothing is remembered, so the directory is listed now, and the file is kept under the name that is listed.
  have now : s.current dir = some d := by
    have known : (s.remembered ref dir).or (s.current dir) = some d := known
    rwa [empty dir, Option.none_or] at known
  obtain ⟨listing, listed, rfl⟩ := Option.map_eq_some_iff.mp now
  have held := made.mem_of_listed absolute listed mem
  obtain ⟨entry, inFiles, key⟩ := List.mem_map.mp held
  have joined := Path.isAbsolute_join absolute file
  have normal := Path.normalize_normalize (dir.join file)
  constructor
  · refine List.mem_filterMap.mpr ⟨entry, inFiles, ?_⟩
    rw [key, Url.ofPath?_congr (Path.isAbsolute_normalize joined) joined normal, location]
  · rw [← normal, ← MemoryFiles.isSome_text?_iff] at held
    obtain ⟨text, held⟩ := Option.isSome_iff_exists.mp held
    exact ⟨_, text, back, held⟩

theorem within_locations (made : s.files.Made) (empty : ∀ dir, s.remembered ref dir = none) (name : String)
    (e : Engine) (entry : Url) : (s.web ref name e.importers).Within entry (entry :: s.locations) := by
  have there (u v : Url) (imported : v ∈ (s.web ref name e.importers).imports u) :
      v ∈ s.locations ∧ ∃ path text, v.toPath? = some path ∧ s.files.text? path = some text := by
    obtain ⟨spec, _, found⟩ := Web.exists_of_mem_imports imported
    rw [← (told_web name e.importers).answer] at found
    exact exists_of_lists made empty (e.lands_canonicalizeFrom u spec.value spec.fromImport v found)
  refine ⟨List.mem_cons_self, fun u v imported => List.mem_cons_of_mem entry (there u v imported).1, ?_⟩
  intro u v imported
  obtain ⟨_, path, text, back, held⟩ := there u v imported
  have held : (s.told ref).text path = some text := held
  rw [← (told_web name e.importers).load, Engine.answer_load, Rebaser.answer_load, back, Option.bind_some, held]
  simp

theorem length_locations (s : Session) (entry : Url) : (entry :: s.locations).length <= s.sheetLimit := by
  have files : s.locations.length <= s.files.files.length := List.length_filterMap_le _ _
  simp only [List.length_cons, sheetLimit]
  omega

/-- A walk that starts with an empty memory ends, with the graph of all that the entry reaches, or else because the
entry cannot be read or something that it reaches is ambiguous. -/
theorem walk_complete (made : s.files.Made) (empty : ∀ dir, s.remembered ref dir = none) (name : String)
    (e : Engine) (entry : Url) :
    let w := s.web ref name e.importers
    ∃ answer, (∀ limit, s.sheetLimit <= limit ->
        (s.ask ref name (Graph.walk e.importers limit entry)).1 = answer) ∧
      (∀ g, answer = .ok g -> w.Complete entry g) ∧
      (∀ failure, answer = .error failure -> w.Failing entry failure) ∧
      ((∃ failure, answer = .error failure) ↔ ∃ failure, w.Failing entry failure) := by
  intro w
  have enough : (entry :: s.locations).length <= ([] : List Url).length + s.sheetLimit := by
    rw [List.length_nil, Nat.zero_add]
    exact s.length_locations entry
  obtain ⟨answer, visited, ends⟩ := Web.visit_ends (told_web name e.importers)
    (within_locations made empty name e entry) Web.frontier_start enough
  refine ⟨answer, fun limit long => ?_, ends.complete⟩
  rw [(ask_alike ref name (Graph.walk e.importers limit entry) s).1]
  exact visited limit long

-- Two stylesheets that use each other; the first has a plain import and a specifier that leads nowhere as well.
def loop : Session :=
  { start true with
    files := (MemoryFiles.empty.addFile "/d/a.scss" "@use 'e/b'; @import 'x.css', 'e/b'; @use 'y'").addFile
      "/d/e/_b.scss" "@use 'sass:math'; @use '../a'" }

def loopEngine : Engine :=
  { config := .default
    rebaser := Rebaser.anchored "/d" Rebaser.defaultMarks false
    finder := Package.installed Rebaser.defaultMarks }

def loopEntry : Url :=
  Url.ofSegments ["d".toList, "a.scss".toList]

def loopPartial : Url :=
  Url.ofSegments ["d".toList, "e".toList, "_b.scss".toList]

def loopGraph : Graph :=
  { entry := loopEntry
    sheets := [
      { url := loopEntry, dialect := .scss, replacements := 0, imports := [loopPartial, loopPartial] },
      { url := loopPartial, dialect := .scss, replacements := 0, imports := [loopEntry] }]
    missing := [{ sheet := loopEntry, specifier := "y" }] }

theorem walk_complete_loop :
    loop.files.Made ∧ (∀ dir, loop.remembered (.slot 0) dir = none) ∧
      (loop.ask (.slot 0) "b" (Graph.walk loopEngine.importers loop.sheetLimit loopEntry)).1 = .ok loopGraph ∧
      (loop.web (.slot 0) "b" loopEngine.importers).Complete loopEntry loopGraph := by
  have made : loop.files.Made := (MemoryFiles.Made.empty.addFile _ _).addFile _ _
  have empty (dir : Path) : loop.remembered (.slot 0) dir = none := rfl
  obtain ⟨answer, ends, complete, _⟩ := walk_complete made empty "b" loopEngine loopEntry
  have limited := ends loop.sheetLimit (Nat.le_refl _)
  have walked : answer.toOption = some loopGraph := by
    rw [← limited]
    decide +kernel
  cases answer with
  | error _ => simp [Except.toOption] at walked
  | ok g =>
    obtain rfl : g = loopGraph := Option.some.inj walked
    exact ⟨made, empty, limited, complete loopGraph rfl⟩

end Session

end StylesheetImports
