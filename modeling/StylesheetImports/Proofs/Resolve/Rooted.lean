import StylesheetImports.Proofs.Build.Web
import StylesheetImports.Proofs.Path.Ancestors
import StylesheetImports.Proofs.Path.Names
import StylesheetImports.Proofs.Resolve.Landing
import StylesheetImports.Proofs.Resolve.Package
import StylesheetImports.Proofs.Resolve.Priority
import StylesheetImports.Proofs.Url.Reader

set_option autoImplicit false

namespace StylesheetImports

-- The same thing is meant by the path wherever relative paths start; nothing is meant by the empty
-- one.
def Path.IsRooted (p : Path) : Prop :=
  p.isAbsolute = true ∨ p.bytes = []

structure View.Rooted (view other : View) : Prop where
  directory : ∀ dir : Path, dir.isAbsolute = true -> other.directory dir = view.directory dir
  text : ∀ file : Path, file.IsRooted -> other.text file = view.text file

namespace Query

variable {A B : Type} {view other : View} {clean : Prop}

-- A question asks for absolute paths only, as the view answers it.
def Grounded (view : View) : Query A -> Prop
  | .done _ => True
  | .directory _ dir next => dir.isAbsolute = true ∧ (next (view.directory dir)).Grounded view
  | .text file next => file.IsRooted ∧ (next (view.text file)).Grounded view
  | .record _ _ next => next.Grounded view

theorem grounded_bind {q : Query A} {f : A -> Query B} :
    (q.bind f).Grounded view ↔ q.Grounded view ∧ (f (q.eval view)).Grounded view := by
  induction q with
  | done a => exact (and_iff_right trivial).symm
  | directory memory dir next ih => exact (and_congr_right fun _ => ih _).trans and_assoc.symm
  | text file next ih => exact (and_congr_right fun _ => ih _).trans and_assoc.symm
  | record location map next ih => exact ih

structure Steady (view other : View) (clean : Prop) (q : Query A) : Prop where
  eval : q.eval other = q.eval view
  grounded : clean -> q.Grounded view

theorem steady_pure (a : A) : Steady view other clean (pure a) :=
  ⟨rfl, fun _ => trivial⟩

theorem Steady.bind {q : Query A} {f : A -> Query B} (first : q.Steady view other clean)
    (further : (f (q.eval view)).Steady view other clean) : (q >>= f).Steady view other clean := by
  refine ⟨?_, fun ok => grounded_bind.mpr ⟨first.grounded ok, further.grounded ok⟩⟩
  rw [bind_eq, eval_bind, eval_bind, first.eval, further.eval]

variable (rooted : view.Rooted other)

include rooted

theorem steady_lookup {dir : Path} (absolute : dir.isAbsolute = true) :
    (lookup dir).Steady view other clean :=
  ⟨rooted.directory dir absolute, fun _ => ⟨absolute, trivial⟩⟩

theorem steady_read {file : Path} (usable : file.IsRooted) : (read file).Steady view other clean :=
  ⟨rooted.text file usable, fun _ => ⟨usable, trivial⟩⟩

end Query

open Query

namespace Resolver

variable {view other : View} {clean : Prop} (rooted : view.Rooted other)

include rooted

theorem steady_atPlace (location : Url) (fromImport : Bool) {otherwise : Place -> Directory -> Query Resolution}
    (further : ∀ place d, (otherwise place d).Steady view other clean) :
    (atPlace location fromImport otherwise).Steady view other clean := by
  unfold atPlace
  cases names : Place.ofUrl? location with
  | none => exact steady_pure _
  | some place =>
    refine (steady_lookup rooted (Place.join_name names).1).bind ?_
    split
    · exact steady_pure _
    · split
      · exact steady_pure _
      · exact steady_pure _
      · exact further _ _

theorem steady_resolve (location : Url) (fromImport allowIndex : Bool) :
    (resolve location fromImport allowIndex).Steady view other clean := by
  refine steady_atPlace rooted location fromImport fun place d => ?_
  cases allowIndex with
  | false => exact steady_pure _
  | true =>
    simp only [if_true, atIndex]
    split
    · split
      · exact steady_pure _
      · exact steady_atPlace rooted _ fromImport fun _ _ => steady_pure _
    · exact steady_pure _

omit rooted in
theorem steady_first {qs : List (Query Resolution)} (h : ∀ q ∈ qs, q.Steady view other clean) :
    (first qs).Steady view other clean := by
  induction qs with
  | nil => exact steady_pure _
  | cons q qs ih =>
    obtain ⟨here, others⟩ := List.forall_mem_cons.mp h
    refine here.bind ?_
    split
    · exact ih others
    · exact steady_pure _

theorem steady_relative (specifier : String) (fromImport : Bool) :
    (relative specifier fromImport).Steady view other clean := by
  unfold relative
  split
  · exact steady_resolve rooted _ fromImport true
  · exact steady_pure _

theorem steady_loadPaths (dirs : List Path) (specifier : String) (fromImport : Bool) :
    (loadPaths dirs specifier fromImport).Steady view other clean := by
  unfold loadPaths
  split
  · exact steady_resolve rooted _ fromImport true
  · refine steady_first fun q mem => ?_
    obtain ⟨dir, _, rfl⟩ := List.mem_map.mp mem
    unfold below
    split
    · exact steady_resolve rooted _ fromImport true
    · exact steady_pure _

end Resolver

namespace Package

variable {view other : View} {clean : Prop}

theorem steady_isIn (rooted : view.Rooted other) (package : Name) {modules : Path} (absolute : modules.isAbsolute = true) :
    (isIn package modules).Steady view other clean := by
  refine (steady_lookup rooted absolute).bind ?_
  split
  · exact steady_pure _
  · split
    · exact steady_pure _
    · split
      · refine (steady_lookup rooted (Path.isAbsolute_join absolute _)).bind ?_
        split
        · exact steady_pure _
        · exact steady_pure _
      · exact steady_pure _

theorem steady_nearest (rooted : view.Rooted other) (bare : List Char) (package : Name) {dirs : List Path}
    (absolute : ∀ dir ∈ dirs, dir.isAbsolute = true) : (nearest bare package dirs).Steady view other clean := by
  induction dirs with
  | nil => exact steady_pure _
  | cons dir dirs ih =>
    obtain ⟨here, above⟩ := List.forall_mem_cons.mp absolute
    refine (steady_isIn rooted package (Path.isAbsolute_join here _)).bind ?_
    split
    · exact steady_pure _
    · exact ih above

theorem eval_installed_relative (view : View) (marks : List String) (specifier : String) (fromImport : Bool) {origin : Path}
    (relative : origin.isAbsolute = false) : (installed marks specifier fromImport origin).eval view = none := by
  unfold installed
  dsimp only
  cases read : name? (strip marks specifier.toList) with
  | none => rfl
  | some package =>
    dsimp only
    rw [eval_nearest, Option.bind_eq_none_iff]
    intro dir found
    have below := Path.isAbsolute_of_mem_ancestors (List.mem_of_find?_eq_some found)
    have plain : (strip marks specifier.toList).head? ≠ some '/' := by
      intro first
      rw [name?_of_nameless (.inr (.inr first))] at read
      cases read
    have bare : (Path.ofString (String.ofList (strip marks specifier.toList))).isAbsolute = false := by
      rw [Path.ofString, String.toList_ofList, Path.isAbsolute_text plain]
    have modules : (Path.ofString "node_modules").isAbsolute = false := by decide +kernel
    rw [Url.ofPath?, if_neg]
    rw [inModules, Path.isAbsolute_join_of_relative bare, Path.isAbsolute_join_of_relative modules, below, relative]
    exact Bool.false_ne_true

theorem steady_installed (rooted : view.Rooted other) (marks : List String) (specifier : String) (fromImport : Bool)
    {origin : Path} (absolute : clean -> origin.isAbsolute = true) :
    (installed marks specifier fromImport origin).Steady view other clean := by
  cases start : origin.isAbsolute with
  | false =>
    refine ⟨?_, fun ok => absurd (absolute ok) (by simp [start])⟩
    rw [eval_installed_relative _ _ _ _ start, eval_installed_relative _ _ _ _ start]
  | true =>
    unfold installed
    dsimp only
    split
    · exact steady_pure _
    · exact steady_nearest rooted _ _ fun dir mem => (Path.isAbsolute_of_mem_ancestors mem).trans start

end Package

namespace PackedSpecifier

-- If the specifier is a packed one, the directory that it comes from is an absolute path.
def Anchored (specifier : String) : Prop :=
  ∀ packed, decode? specifier = some packed -> packed.origin.isAbsolute = true

theorem anchored_location {u : Url} (file : u.isFile = true) : Anchored (toString u) := by
  intro packed read
  have scheme : u.scheme = "file".toList := by
    rw [Url.isFile, decide_eq_true_eq] at file
    exact file
  have begins : (toString u).toList = "file".toList ++ (u.render.drop 4) := by
    change (String.ofList u.render).toList = _
    rw [String.toList_ofList, Url.render, scheme]
    simp
  have unmarked : marker.isPrefixOf? (toString u).toList = none := by
    rw [begins]
    rfl
  rw [decode?, unmarked] at read
  cases read

end PackedSpecifier

open PackedSpecifier

namespace Resolver

variable {view other : View} {clean : Prop} (rooted : view.Rooted other)

include rooted

theorem steady_packages (marks : List String) {specifier : String} (anchored : clean -> Anchored specifier)
    (fromImport : Bool) : (packages (Package.installed marks) specifier fromImport).Steady view other clean := by
  unfold packages
  split
  · exact steady_resolve rooted _ fromImport true
  · split
    · exact steady_pure _
    next packed read =>
      refine (Package.steady_installed rooted marks _ fromImport fun ok => anchored ok packed read).bind ?_
      split
      · exact steady_pure _
      · split
        · exact steady_resolve rooted _ fromImport true
        · exact steady_pure _

end Resolver

def Rebaser.Anchors (view : View) (r : Rebaser) : Prop :=
  ∀ location loaded, (r.load location).eval view = some loaded ->
    ∀ spec ∈ (Scan.ofText loaded.content).specifiers, Anchored spec.value

theorem Url.isFile_of_ofPath? {p : Path} {u : Url} (made : ofPath? p = some u) : u.isFile = true := by
  unfold ofPath? at made
  split at made
  · rw [← Option.some.inj made]
    rfl
  · cases made

theorem Engine.isFile_of_found {view : View} (e : Engine) {containing u : Url} {specifier : String} {fromImport : Bool}
    (found : (e.importers.canonicalizeFrom containing specifier fromImport).answer view.answers = .found u) :
    u.isFile = true := by
  obtain ⟨_, _, _, _, _, _, made, _⟩ := e.lands_canonicalizeFrom containing specifier fromImport u found
  exact Url.isFile_of_ofPath? made

theorem Engine.isFile_of_mem_links {view : View} (e : Engine) {sheet : Url} {specs : List Specifier} {l : Graph.Links}
    (linked : (Graph.links e.importers sheet specs).eval view = .ok l) {u : Url} (mem : u ∈ l.imports) :
    u.isFile = true := by
  let w : Web :=
    { load := fun u => (e.importers.load u).answer view.answers
      answer := fun u spec => (e.importers.canonicalizeFrom u spec.value spec.fromImport).answer view.answers }
  have told : w.Told e.importers view.answers := ⟨fun _ => rfl, fun _ _ => rfl⟩
  rw [eval_eq_answer] at linked
  rcases Web.answer_links told sheet specs with ⟨_, _, _, _, _, ambiguous⟩ | ⟨_, whole⟩
  · rw [ambiguous] at linked
    cases linked
  · rw [whole] at linked
    cases linked
    obtain ⟨spec, _, found⟩ := List.mem_filterMap.mp mem
    unfold Web.found? at found
    split at found
    next same =>
      cases found
      exact e.isFile_of_found same
    next => cases found

variable {view other : View} {clean : Prop} (rooted : view.Rooted other)

include rooted

theorem Rebaser.steady_load (r : Rebaser) (location : Url) : (r.load location).Steady view other clean := by
  unfold load
  split
  · exact steady_pure _
  next path there =>
    have usable : path.IsRooted := by
      by_cases empty : path.bytes = []
      · exact .inr empty
      · exact .inl (Url.isAbsolute_of_toPath? there empty)
    refine (steady_read rooted usable).bind ?_
    split
    · exact steady_pure _
    · dsimp only
      split
      · exact ⟨rfl, fun _ => trivial⟩
      · exact steady_pure _

namespace Engine

variable {e : Engine} {marks : List String} (installed : e.finder = Package.installed marks)

theorem steady_load (e : Engine) (location : Url) : (e.importers.load location).Steady view other clean := by
  unfold Importers.load
  induction e.importers.resolvers.length with
  | zero => exact steady_pure _
  | succ count ih =>
    refine (Rebaser.steady_load rooted _ location).bind ?_
    split
    · exact ih
    · exact steady_pure _

include installed

theorem steady_canonicalize {specifier : String} (anchored : clean -> Anchored specifier) (fromImport : Bool) :
    (e.importers.canonicalize specifier fromImport).Steady view other clean := by
  refine Resolver.steady_first fun q mem => ?_
  obtain ⟨resolver, among, rfl⟩ := List.mem_map.mp mem
  simp only [importers, resolvers, List.mem_append, List.mem_cons, List.not_mem_nil, or_false] at among
  rcases among with (rfl | paths) | rfl
  · exact Resolver.steady_relative rooted specifier fromImport
  · split at paths
    · exact absurd paths List.not_mem_nil
    · rw [List.mem_singleton.mp paths]
      exact Resolver.steady_loadPaths rooted e.config.loadPaths specifier fromImport
  · rw [installed]
    exact Resolver.steady_packages rooted marks anchored fromImport

theorem steady_canonicalizeFrom {containing : Url} (file : clean -> containing.isFile = true) {specifier : String}
    (anchored : clean -> Anchored specifier) (fromImport : Bool) :
    (e.importers.canonicalizeFrom containing specifier fromImport).Steady view other clean := by
  have alone := steady_canonicalize rooted installed anchored fromImport
  unfold Importers.canonicalizeFrom
  dsimp only
  split
  next failure _ unread =>
    split
    next joined read =>
      have written (ok : clean) : Anchored (toString joined) := anchored_location (Url.isFile_join (file ok) unread read)
      refine Resolver.steady_first fun q mem => ?_
      simp only [List.mem_cons, List.not_mem_nil, or_false] at mem
      rcases mem with rfl | rfl
      · exact steady_canonicalize rooted installed written fromImport
      · exact alone
    · exact alone
  · exact alone

theorem steady_links {sheet : Url} (file : clean -> sheet.isFile = true) {specs : List Specifier}
    (anchored : clean -> ∀ spec ∈ specs, Anchored spec.value) :
    (Graph.links e.importers sheet specs).Steady view other clean := by
  induction specs with
  | nil => exact steady_pure _
  | cons spec specs ih =>
    have rest := ih fun ok spec' mem => anchored ok spec' (List.mem_cons_of_mem spec mem)
    rw [Graph.links]
    split
    · exact rest
    · refine (steady_canonicalizeFrom rooted installed file (fun ok => anchored ok spec List.mem_cons_self) _).bind ?_
      split
      · exact steady_pure _
      · refine rest.bind ?_
        split <;> exact steady_pure _
      · refine rest.bind ?_
        split
        · exact steady_pure _
        · split <;> exact steady_pure _

theorem steady_visit {entry : Url} (anchored : clean -> e.rebaser.Anchors view) {limit : Nat} {known queue : List Url}
    (files : clean -> ∀ u ∈ queue, u.isFile = true) : (Graph.visit e.importers entry limit known queue).Steady view other clean := by
  -- Every location in the queue is that of a file: what a stylesheet links to was found by resolving.
  induction limit generalizing known queue with
  | zero => cases queue <;> exact steady_pure _
  | succ limit ih =>
    cases queue with
    | nil => exact steady_pure _
    | cons u queue =>
      have here (ok : clean) : u.isFile = true := files ok u List.mem_cons_self
      have later (ok : clean) (v : Url) (mem : v ∈ queue) : v.isFile = true := files ok v (List.mem_cons_of_mem u mem)
      rw [Graph.visit]
      refine (steady_load rooted e u).bind ?_
      cases loaded : (e.importers.load u).eval view with
      | none =>
        dsimp only
        split
        · exact steady_pure _
        · exact ih later
      | some sheet =>
        have alone : (e.rebaser.load u).eval view = some sheet := by
          rw [eval_eq_answer] at loaded ⊢
          rwa [answer_load] at loaded
        refine (steady_links rooted installed here fun ok => anchored ok u sheet alone).bind ?_
        cases linked : (Graph.links e.importers u (Scan.ofText sheet.content).specifiers).eval view with
        | error failure => exact steady_pure _
        | ok l =>
          have further (ok : clean) (v : Url) (mem : v ∈ queue ++ Graph.newIn known l.imports) : v.isFile = true := by
            rcases List.mem_append.mp mem with waiting | new
            · exact later ok v waiting
            · exact e.isFile_of_mem_links linked (Web.mem_newIn.mp new).1
          refine (ih further).bind ?_
          split <;> exact steady_pure _

theorem steady_walk (anchored : clean -> e.rebaser.Anchors view) (limit : Nat) {entry : Url} (file : clean -> entry.isFile = true) :
    (Graph.walk e.importers limit entry).Steady view other clean :=
  steady_visit rooted installed anchored fun ok _ mem => List.mem_singleton.mp mem ▸ file ok

end Engine

end StylesheetImports
