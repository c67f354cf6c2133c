import StylesheetImports.Build.Engine
import StylesheetImports.Proofs.Path.Components
import StylesheetImports.Proofs.Storage.Query

set_option autoImplicit false

namespace StylesheetImports

theorem Resolution.orElse_of_ne {r : Resolution} (answered : r ≠ .absent) (other : Resolution) :
    r.orElse other = r := by
  cases r with
  | absent => exact absurd rfl answered
  | _ => rfl

namespace Resolver

/-- A specifier is a locator of a file, or else an absolute path. -/
inductive Locates (specifier : String) (location : Url) : Prop where
  | locator (read : Url.parse specifier = .ok location) (file : location.isFile = true)
  | path (other : ∀ u, Url.parse specifier = .ok u -> u.isFile = false)
      (absolute : (Path.ofString specifier).isAbsolute = true) (made : Url.ofPath? specifier = some location)

theorem ofSpecifier?_eq_some {specifier : String} {location : Url} :
    Url.ofSpecifier? specifier = some location ↔ Locates specifier location := by
  have absolute (made : Url.ofPath? specifier = some location) : (Path.ofString specifier).isAbsolute = true := by
    unfold Url.ofPath? at made
    split at made
    next yes => exact yes
    next => simp at made
  unfold Url.ofSpecifier?
  constructor
  next =>
    intro h
    split at h
    next u read =>
      by_cases file : u.isFile = true
      next =>
        rw [if_pos file, Option.some.injEq] at h
        exact h ▸ .locator read file
      next =>
        rw [if_neg file] at h
        apply Locates.path _ (absolute h) h
        intro v same
        rw [read, Except.ok.injEq] at same
        simpa [← same] using file
    next failure read =>
      apply Locates.path _ (absolute h) h
      intro v same
      simp [read] at same
  next =>
    intro h
    cases h with
    | locator read file => simp [read, file]
    | path other _ made =>
      cases read : Url.parse specifier with
      | error _ => exact made
      | ok u => simp [other u read, made]

variable (fixed : Answers Id)

/-- What a specifier resolves to below a load path, which must be absolute. -/
def Below (dir : Path) (specifier : String) (fromImport : Bool) (answer : Resolution) : Prop :=
  dir.isAbsolute = true ∧ ∃ location, Url.ofPath? (dir.join specifier) = some location ∧
    answer = (resolve location fromImport true).answer fixed

variable {fixed}

theorem answer_first_cons (q : Query Resolution) (rest : List (Query Resolution)) :
    (first (q :: rest)).answer fixed = (q.answer fixed).orElse ((first rest).answer fixed) := by
  simp only [first, Query.bind_eq, Query.answer_bind]
  cases q.answer fixed <;> rfl

@[simp] theorem answer_first_nil : (first []).answer fixed = .absent := rfl

theorem answer_first_append (before after : List (Query Resolution)) :
    (first (before ++ after)).answer fixed = ((first before).answer fixed).orElse ((first after).answer fixed) := by
  induction before with
  | nil => rfl
  | cons q before ih => rw [List.cons_append, answer_first_cons, ih, answer_first_cons, Resolution.orElse_assoc]

theorem isAbsolute_of_ofSpecifier? {specifier : String} (none : Url.ofSpecifier? specifier = none) :
    (Path.ofString specifier).isAbsolute = false := by
  rw [Bool.eq_false_iff]
  intro absolute
  have made : ∃ location, Url.ofPath? specifier = some location := ⟨_, if_pos absolute⟩
  obtain ⟨location, made⟩ := made
  unfold Url.ofSpecifier? at none
  split at none
  next =>
    split at none
    next => simp at none
    next => simp [made] at none
  next => simp [made] at none

theorem answer_below {specifier : String} (none : Url.ofSpecifier? specifier = none) (fromImport : Bool)
    (dir : Path) :
    Below fixed dir specifier fromImport ((below dir specifier fromImport).answer fixed) ∨
      dir.isAbsolute = false ∧ (below dir specifier fromImport).answer fixed = .absent := by
  have relative := isAbsolute_of_ofSpecifier? none
  unfold below
  by_cases absolute : dir.isAbsolute = true
  next =>
    have made : Url.ofPath? (dir.join specifier) = some _ := if_pos (Path.isAbsolute_join absolute _)
    rw [made]
    exact .inl ⟨absolute, _, made, rfl⟩
  next =>
    have unmade : Url.ofPath? (dir.join specifier) = Option.none :=
      if_neg (by rwa [Path.isAbsolute_join_of_relative relative])
    rw [unmade]
    exact .inr ⟨by simpa using absolute, rfl⟩

theorem Below.eq {dir : Path} {specifier : String} {fromImport : Bool} {answer : Resolution}
    (h : Below fixed dir specifier fromImport answer) : (below dir specifier fromImport).answer fixed = answer := by
  obtain ⟨_, location, made, same⟩ := h
  rw [below, made, same]

variable (fixed)

def Misses (dir : Path) (specifier : String) (fromImport : Bool) : Prop :=
  ∀ answer, Below fixed dir specifier fromImport answer -> answer = .absent

variable {fixed}

theorem misses_iff {specifier : String} (none : Url.ofSpecifier? specifier = none) {fromImport : Bool} {dir : Path} :
    Misses fixed dir specifier fromImport ↔ (below dir specifier fromImport).answer fixed = .absent := by
  constructor
  next =>
    intro misses
    rcases answer_below none fromImport dir with here | ⟨_, nothing⟩
    next => exact misses _ here
    next => exact nothing
  next =>
    intro nothing answer here
    rw [← here.eq, nothing]

variable (fixed) in
theorem answer_first_below {specifier : String} (none : Url.ofSpecifier? specifier = none) (fromImport : Bool)
    (dirs : List Path) :
    let answer := (first (dirs.map fun dir => below dir specifier fromImport)).answer fixed
    (∃ before dir after, dirs = before ++ dir :: after ∧
        (∀ earlier ∈ before, Misses fixed earlier specifier fromImport) ∧
        Below fixed dir specifier fromImport answer ∧ answer ≠ .absent) ∨
      (∀ dir ∈ dirs, Misses fixed dir specifier fromImport) ∧ answer = .absent := by
  induction dirs with
  | nil => exact .inr ⟨fun dir mem => absurd mem List.not_mem_nil, rfl⟩
  | cons dir dirs ih =>
    intro answer
    have split : answer = ((below dir specifier fromImport).answer fixed).orElse
        ((first (dirs.map fun dir => below dir specifier fromImport)).answer fixed) := answer_first_cons _ _
    by_cases nothing : (below dir specifier fromImport).answer fixed = .absent
    next =>
      have misses := (misses_iff none).mpr nothing
      rw [nothing, Resolution.absent_orElse] at split
      rw [split]
      rcases ih with ⟨before, other, after, rfl, earlier, here, answered⟩ | ⟨all, unanswered⟩
      next =>
        refine .inl ⟨dir :: before, other, after, rfl, ?_, here, answered⟩
        exact List.forall_mem_cons.mpr ⟨misses, earlier⟩
      next => exact .inr ⟨List.forall_mem_cons.mpr ⟨misses, all⟩, unanswered⟩
    next =>
      have whole := split.trans (Resolution.orElse_of_ne nothing _)
      refine .inl ⟨[], dir, dirs, rfl, by simp, ?_, whole ▸ nothing⟩
      rw [whole]
      exact (answer_below none fromImport dir).resolve_right fun relative => nothing relative.2

theorem answer_first_of_misses {specifier : String} (none : Url.ofSpecifier? specifier = none) {fromImport : Bool}
    {before after : List Path} {dir : Path} {answer : Resolution}
    (earlier : ∀ earlier ∈ before, Misses fixed earlier specifier fromImport)
    (here : Below fixed dir specifier fromImport answer) (answered : answer ≠ .absent) :
    (first ((before ++ dir :: after).map fun dir => below dir specifier fromImport)).answer fixed = answer := by
  have nothing : (first (before.map fun dir => below dir specifier fromImport)).answer fixed = .absent := by
    rcases answer_first_below fixed none fromImport before with ⟨_, other, _, rfl, _, there, found⟩ | ⟨_, nothing⟩
    next => exact absurd (earlier other (by simp) _ there) found
    next => exact nothing
  rw [List.map_append, List.map_cons, answer_first_append, nothing, Resolution.absent_orElse, answer_first_cons,
    here.eq, Resolution.orElse_of_ne answered]

end Resolver

namespace Engine

open Resolver

variable {fixed : Answers Id}

theorem answer_located (e : Engine) {specifier : String} {location : Url}
    (located : Url.ofSpecifier? specifier = some location) (fromImport : Bool) :
    (e.importers.canonicalize specifier fromImport).answer fixed =
      (resolve location fromImport true).answer fixed := by
  -- All resolvers ask for the same location, so trying the next one changes nothing.
  have again (r : Resolution) : r.orElse r = r := by cases r <;> rfl
  simp only [Importers.canonicalize, chain, importers, resolvers]
  split <;> simp only [List.map_cons, List.map_nil, List.cons_append, List.nil_append,
    answer_first_cons, answer_first_nil, relative, loadPaths, packages, located, Resolution.orElse_absent, again]

variable (fixed) in
theorem answer_unlocated (e : Engine) {specifier : String} (none : Url.ofSpecifier? specifier = none)
    (fromImport : Bool) :
    (e.importers.canonicalize specifier fromImport).answer fixed =
      ((first (e.config.loadPaths.map fun dir => below dir specifier fromImport)).answer fixed).orElse
        ((packages e.finder specifier fromImport).answer fixed) := by
  have noFile : (relative specifier fromImport).answer fixed = .absent := by
    rw [relative, none]
    rfl
  have paths : loadPaths e.config.loadPaths specifier fromImport =
      first (e.config.loadPaths.map fun dir => below dir specifier fromImport) := by
    rw [loadPaths, none]
  simp only [Importers.canonicalize, chain, importers, resolvers]
  split
  next empty =>
    simp only [List.map_cons, List.map_nil, List.cons_append, List.nil_append, answer_first_cons,
      answer_first_nil, noFile, empty, Resolution.absent_orElse, Resolution.orElse_absent]
  next =>
    simp only [List.map_cons, List.map_nil, List.cons_append, List.nil_append, answer_first_cons,
      answer_first_nil, noFile, paths, Resolution.absent_orElse, Resolution.orElse_absent]

/-- The order in which the resolvers of an engine are asked. A location is resolved as it is; any other specifier
below the first load path that has an answer, be it an ambiguity; and by the finder where no load path has one. -/
theorem canonicalize_priority (fixed : Answers Id) (e : Engine) (specifier : String) (fromImport : Bool) :
    let answer := (e.importers.canonicalize specifier fromImport).answer fixed
    (∀ location, Locates specifier location -> answer = (resolve location fromImport true).answer fixed) ∧
      ((∀ location, ¬ Locates specifier location) ->
        ((∃ before dir after, e.config.loadPaths = before ++ dir :: after ∧
              (∀ earlier ∈ before, Misses fixed earlier specifier fromImport) ∧
              Below fixed dir specifier fromImport answer ∧ answer ≠ .absent) ∨
            (∀ dir ∈ e.config.loadPaths, Misses fixed dir specifier fromImport) ∧
              answer = (packages e.finder specifier fromImport).answer fixed) ∧
          (∀ before dir after named candidates, e.config.loadPaths = before ++ dir :: after ->
            (∀ earlier ∈ before, Misses fixed earlier specifier fromImport) ->
            Below fixed dir specifier fromImport (.ambiguous named candidates) ->
              answer = .ambiguous named candidates) ∧
          ∀ (longer : Engine) (more : List Path), longer.config.loadPaths = e.config.loadPaths ++ more ->
            (∃ dir ∈ e.config.loadPaths, ¬ Misses fixed dir specifier fromImport) ->
              (longer.importers.canonicalize specifier fromImport).answer fixed = answer) := by
  intro answer
  refine ⟨fun location located => e.answer_located (ofSpecifier?_eq_some.mpr located) fromImport, ?_⟩
  intro unlocated
  have none : Url.ofSpecifier? specifier = none := by
    rw [Option.eq_none_iff_forall_ne_some]
    exact fun location located => unlocated location (ofSpecifier?_eq_some.mp located)
  have whole := e.answer_unlocated fixed none fromImport
  refine ⟨?_, fun before dir after named candidates split earlier here => ?_, fun longer more split answers => ?_⟩
  next =>
    rcases answer_first_below fixed none fromImport e.config.loadPaths with
      ⟨before, dir, after, split, earlier, here, answered⟩ | ⟨all, nothing⟩
    next =>
      have decided :
          answer = (first (e.config.loadPaths.map fun dir => below dir specifier fromImport)).answer fixed :=
        whole.trans (Resolution.orElse_of_ne answered _)
      exact .inl ⟨before, dir, after, split, earlier, decided ▸ here, decided ▸ answered⟩
    next =>
      refine .inr ⟨all, whole.trans ?_⟩
      rw [nothing, Resolution.absent_orElse]
  next =>
    rw [split, answer_first_of_misses none earlier here (by simp)] at whole
    exact whole
  next =>
    have answered :
        (first (e.config.loadPaths.map fun dir => below dir specifier fromImport)).answer fixed ≠ .absent := by
      obtain ⟨dir, mem, hits⟩ := answers
      rcases answer_first_below fixed none fromImport e.config.loadPaths with
        ⟨_, _, _, _, _, _, answered⟩ | ⟨all, _⟩
      next => exact answered
      next => exact absurd (all dir mem) hits
    rw [longer.answer_unlocated fixed none, split, List.map_append, answer_first_append, Resolution.orElse_assoc,
      Resolution.orElse_of_ne answered]
    exact (whole.trans (Resolution.orElse_of_ne answered _)).symm

-- Two files of the first absolute load path that a name may mean, and one of the second.
def splitView : View :=
  { directory := fun dir =>
      if dir = "/x" then some { files := ["_a.scss", "a.scss"], directories := [] }
      else if dir = "/y" then some { files := ["a.scss"], directories := [] }
      else none
    text := fun _ => none }

def searching (paths : List Path) : Engine :=
  { config := { Config.default with loadPaths := paths }
    rebaser := Rebaser.anchored "/d" Rebaser.defaultMarks false
    finder := Package.installed Rebaser.defaultMarks }

theorem canonicalize_priority_split :
    (∀ location, ¬ Locates "a" location) ∧
      ((searching ["r", "/x"]).importers.canonicalize "a" false).answer splitView.answers =
        .ambiguous "file:///x/a" ["/x/a.scss", "/x/_a.scss"] ∧
      ((searching ["r", "/x", "/y"]).importers.canonicalize "a" false).answer splitView.answers =
        .ambiguous "file:///x/a" ["/x/a.scss", "/x/_a.scss"] := by
  have none : Url.ofSpecifier? "a" = none := by decide +kernel
  have unlocated (location : Url) : ¬ Locates "a" location := by
    intro located
    simp [ofSpecifier?_eq_some.mpr located] at none
  have relative : Misses splitView.answers "r" "a" false := fun _ here => absurd here.1 (by decide)
  have here : Below splitView.answers "/x" "a" false (.ambiguous "file:///x/a" ["/x/a.scss", "/x/_a.scss"]) := by
    refine ⟨by decide, Url.ofSegments ["x".toList, "a".toList], ?_, ?_⟩ <;> decide +kernel
  obtain ⟨_, first, append⟩ :=
    (canonicalize_priority splitView.answers (searching ["r", "/x"]) "a" false).2 unlocated
  have answer := first ["r"] "/x" [] _ _ rfl (List.forall_mem_singleton.mpr relative) here
  have answers : ¬ Misses splitView.answers "/x" "a" false := fun misses => absurd (misses _ here) (by simp)
  have longer := append (searching ["r", "/x", "/y"]) ["/y"] rfl ⟨"/x", by decide, answers⟩
  exact ⟨unlocated, answer, longer.trans answer⟩

end Engine

end StylesheetImports
