import StylesheetImports.Build.Engine
import StylesheetImports.Proofs.Resolve.Relative
import StylesheetImports.Proofs.Storage.Query

set_option autoImplicit false

namespace StylesheetImports

namespace Resolver

variable {fixed : Answers Id}

theorem answer_atPlace {location : Url} {fromImport : Bool} {otherwise : Place -> Directory -> Query Resolution}
    (same : ∀ place d, (otherwise place d).answer fixed = (otherwise place d).eval fixed.own) :
    (atPlace location fromImport otherwise).answer fixed = (atPlace location fromImport otherwise).eval fixed.own := by
  unfold atPlace
  cases Place.ofUrl? location with
  | none => rfl
  | some place =>
    simp only [Query.bind_eq, Query.answer_bind, Query.eval_bind, Query.answer_lookup, Query.eval_lookup,
      Answers.own]
    cases fixed.directory .own place.directory with
    | none => rfl
    | some d =>
      simp only
      cases Choice.ofFiles ((Stem.ofName place.name.toList).hits d fromImport) with
      | none => exact same place d
      | _ => rfl

theorem answer_resolve (fixed : Answers Id) (location : Url) (fromImport allowIndex : Bool) :
    (resolve location fromImport allowIndex).answer fixed =
      (resolve location fromImport allowIndex).eval fixed.own := by
  refine answer_atPlace fun place d => ?_
  cases allowIndex with
  | false => rfl
  | true =>
    simp only [if_true, atIndex]
    split
    -- The index is asked for without an index of its own, so this goes no deeper.
    · cases Url.ofPath? (place.path.join "index") with
      | none => rfl
      | some index => exact answer_atPlace fun _ _ => rfl
    · rfl

def Lands (fixed : Answers Id) (q : Query Resolution) : Prop :=
  ∀ u, q.answer fixed = .found u -> fixed.own.Lists u

theorem lands_resolve (location : Url) (fromImport allowIndex : Bool) :
    Lands fixed (resolve location fromImport allowIndex) := by
  intro u found
  rw [answer_resolve] at found
  exact lists_of_resolve fixed.own fromImport found

theorem lands_absent : Lands fixed (pure .absent) := by
  intro u found
  simp at found

theorem lands_first {qs : List (Query Resolution)} (h : ∀ q ∈ qs, Lands fixed q) : Lands fixed (first qs) := by
  induction qs with
  | nil => exact lands_absent
  | cons q qs ih =>
    intro u found
    rw [first, Query.bind_eq, Query.answer_bind] at found
    cases answer : q.answer fixed with
    | absent =>
      rw [answer] at found
      exact ih (fun other mem => h other (List.mem_cons_of_mem q mem)) u found
    | _ =>
      rw [answer] at found
      exact h q List.mem_cons_self u (answer.trans found)

theorem lands_relative (specifier : String) (fromImport : Bool) : Lands fixed (relative specifier fromImport) := by
  unfold relative
  split
  · exact lands_resolve _ fromImport true
  · exact lands_absent

theorem lands_loadPaths (dirs : List Path) (specifier : String) (fromImport : Bool) :
    Lands fixed (loadPaths dirs specifier fromImport) := by
  unfold loadPaths
  split
  · exact lands_resolve _ fromImport true
  · refine lands_first fun q mem => ?_
    obtain ⟨dir, _, rfl⟩ := List.mem_map.mp mem
    unfold below
    split
    · exact lands_resolve _ fromImport true
    · exact lands_absent

theorem lands_packages (find : Finder) (specifier : String) (fromImport : Bool) :
    Lands fixed (packages find specifier fromImport) := by
  unfold packages
  split
  · exact lands_resolve _ fromImport true
  · split
    · exact lands_absent
    · intro u
      rw [Query.bind_eq, Query.answer_bind]
      split
      · exact lands_absent u
      · split
        · exact lands_resolve _ fromImport true u
        · exact lands_absent u

end Resolver

namespace Engine

open Resolver

variable {fixed : Answers Id}

theorem lands_canonicalize (e : Engine) (specifier : String) (fromImport : Bool) :
    Lands fixed (e.importers.canonicalize specifier fromImport) := by
  refine lands_first fun q mem => ?_
  obtain ⟨resolver, among, rfl⟩ := List.mem_map.mp mem
  simp only [importers, resolvers, List.mem_append, List.mem_cons, List.not_mem_nil, or_false] at among
  rcases among with (rfl | paths) | rfl
  · exact lands_relative specifier fromImport
  · split at paths
    · exact absurd paths List.not_mem_nil
    · rw [List.mem_singleton.mp paths]
      exact lands_loadPaths e.config.loadPaths specifier fromImport
  · exact lands_packages e.finder specifier fromImport

theorem lands_canonicalizeFrom (e : Engine) (containing : Url) (specifier : String) (fromImport : Bool) :
    Lands fixed (e.importers.canonicalizeFrom containing specifier fromImport) := by
  have alone : Lands fixed (e.importers.canonicalize specifier fromImport) :=
    lands_canonicalize e specifier fromImport
  unfold Importers.canonicalizeFrom
  simp only
  split
  · split
    · refine lands_first fun q mem => ?_
      simp only [List.mem_cons, List.not_mem_nil, or_false] at mem
      rcases mem with rfl | rfl
      · exact lands_canonicalize e _ fromImport
      · exact alone
    · exact alone
  · exact alone

theorem answer_load (e : Engine) (location : Url) :
    (e.importers.load location).answer fixed = (e.rebaser.load location).answer fixed := by
  -- All importers load by the same rebaser, so trying the next one changes nothing.
  have first (count : Nat) :
      (Importers.loadFirst e.rebaser location (count + 1)).answer fixed = (e.rebaser.load location).answer fixed := by
    induction count with
    | zero =>
      rw [Importers.loadFirst, Query.bind_eq, Query.answer_bind]
      cases (e.rebaser.load location).answer fixed <;> rfl
    | succ count ih =>
      rw [Importers.loadFirst, Query.bind_eq, Query.answer_bind]
      cases loaded : (e.rebaser.load location).answer fixed with
      | none => exact ih.trans loaded
      | some _ => rfl
  exact first _

end Engine

end StylesheetImports
