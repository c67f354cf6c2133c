import StylesheetImports.Proofs.Path.NormalForm

set_option autoImplicit false

namespace StylesheetImports

namespace Component

theorem foldl_push_parents (names : List Bytes) (below : List Component) :
    (List.replicate names.length .parent).foldl push (names.map .name ++ below) = below := by
  induction names with
  | nil => rfl
  | cons n names ih => simpa [List.replicate_succ, push] using ih

theorem shared_spec (a b : List Component) :
    a.take (shared a b) = b.take (shared a b) ∧ shared a b <= a.length ∧ shared a b <= b.length := by
  induction a generalizing b with
  | nil => simp [shared]
  | cons x a ih =>
    cases b with
    | nil => simp [shared]
    | cons y b =>
      unfold shared
      split_ifs with same
      · obtain ⟨takes, left, right⟩ := ih b
        simp [same, takes, left, right]
      · simp

theorem shared_prefix {before here : List Component} (within : before <+: here) (later : List Component) :
    shared (before ++ later) here = before.length + shared later (here.drop before.length) := by
  obtain ⟨rest, rfl⟩ := within
  induction before with
  | nil => simp
  | cons first before ih =>
    rw [List.cons_append, List.cons_append, shared, if_pos rfl, ih]
    simp
    omega

theorem length_le_shared_iff (there here : List Component) : here.length <= shared there here ↔ here <+: there := by
  obtain ⟨takes, left, right⟩ := shared_spec there here
  constructor
  · intro whole
    rw [List.take_of_length_le whole] at takes
    rw [← takes]
    exact List.take_prefix _ _
  · rintro ⟨rest, rfl⟩
    have along := shared_prefix (List.prefix_refl here) rest
    -- Nothing is left of the base to have in common with the rest.
    have swapped : shared (here ++ rest) here = here.length := by
      rw [along]
      simp [shared]
    omega

/-- The steps that lead from `here` to `there`. -/
def route (here there : List Component) : List Component :=
  List.replicate (here.length - shared there here) .parent ++ there.drop (shared there here)

theorem length_route (here there : List Component) :
    (route here there).length = (here.length - shared there here) + (there.length - shared there here) := by
  simp [route]

theorem exists_fork (here there : List Bytes) :
    ∃ fork left right : List Bytes, here = fork ++ left ∧ there = fork ++ right ∧
      shared (.root :: there.map .name) (.root :: here.map .name) = fork.length + 1 ∧
      route (.root :: here.map .name) (.root :: there.map .name) =
        List.replicate left.length .parent ++ right.map .name := by
  obtain ⟨takes, left, right⟩ := shared_spec (there.map Component.name) (here.map Component.name)
  have count : shared (.root :: there.map .name) (.root :: here.map .name) =
      shared (there.map Component.name) (here.map Component.name) + 1 := by
    rw [shared, if_pos rfl]
  rw [route, count]
  generalize shared (there.map Component.name) (here.map Component.name) = common at takes left right
  rw [List.length_map] at left right
  rw [← List.map_take, ← List.map_take] at takes
  have same : there.take common = here.take common :=
    List.map_injective_iff.mpr (fun _ _ => Component.name.inj) takes
  refine ⟨here.take common, here.drop common, there.drop common, (List.take_append_drop _ _).symm, ?_, ?_, ?_⟩
  · rw [← same, List.take_append_drop]
  · rw [List.length_take_of_le right]
  · simp

end Component

namespace Path

open Component

/-- Whether a path is that of a directory or of what lies below it. -/
def Contains (dir p : Path) : Prop :=
  dir.normalize.components <+: p.normalize.components

theorem contains_iff (base target : Path) :
    base.Contains target ↔ fold base.components <+: fold target.components := by
  rw [Contains, components_normalize, components_normalize]

variable {target base : Path}

theorem exists_fork (ht : target.isAbsolute = true) (hb : base.isAbsolute = true) :
    ∃ fork left right : List Bytes, fold base.components = .root :: (fork ++ left).map .name ∧
      fold target.components = .root :: (fork ++ right).map .name ∧
      shared (fold target.components) (fold base.components) = fork.length + 1 ∧
      route (fold base.components) (fold target.components) =
        List.replicate left.length .parent ++ right.map .name := by
  obtain ⟨there, hthere, _⟩ := exists_fold_components ht
  obtain ⟨here, hhere, _⟩ := exists_fold_components hb
  obtain ⟨fork, left, right, rfl, rfl, count, steps⟩ := Component.exists_fork here there
  exact ⟨fork, left, right, hhere, hthere, hhere ▸ hthere ▸ count, hhere ▸ hthere ▸ steps⟩

theorem relativeTo_eq_route (ht : target.isAbsolute = true) (hb : base.isAbsolute = true) :
    target.relativeTo base = ofComponents (route (fold base.components) (fold target.components)) := by
  obtain ⟨there, hthere, _⟩ := exists_fold_components ht
  obtain ⟨here, hhere, _⟩ := exists_fold_components hb
  rw [relativeTo, components_normalize, components_normalize, if_neg]
  · rfl
  · rw [hthere, hhere]
    simp

theorem mem_route (ht : target.isAbsolute = true) (hb : base.isAbsolute = true) {c : Component}
    (mem : c ∈ route (fold base.components) (fold target.components)) :
    c = .parent ∨ c ∈ (fold target.components).tail := by
  obtain ⟨fork, left, right, -, there, -, steps⟩ := exists_fork ht hb
  rw [steps] at mem
  rw [there, List.tail_cons, List.map_append]
  exact (List.mem_append.mp mem).imp List.eq_of_mem_replicate (List.mem_append_right _)

theorem isSegment_of_mem_route (ht : target.isAbsolute = true) (hb : base.isAbsolute = true) :
    ∀ c ∈ route (fold base.components) (fold target.components), c.IsSegment := by
  intro c mem
  rcases mem_route ht hb mem with rfl | step
  · exact isSegment_parent
  · exact isSegment_of_mem_fold ht step

theorem foldl_push_route (ht : target.isAbsolute = true) (hb : base.isAbsolute = true) :
    (route (fold base.components) (fold target.components)).foldl push (fold base.components).reverse =
      (fold target.components).reverse := by
  obtain ⟨fork, left, right, here, there, -, steps⟩ := exists_fork ht hb
  -- The names of the base behind the fork are taken back, then those of the target are added.
  have split : (fold base.components).reverse = left.reverse.map .name ++ (.root :: fork.map .name).reverse := by
    rw [here, List.map_append, ← List.cons_append, List.reverse_append, List.map_reverse]
  rw [steps, List.foldl_append, split, ← @List.length_reverse _ left, foldl_push_parents, foldl_push_map_name, there,
    ← List.reverse_append, List.map_append]
  rfl

end Path

end StylesheetImports
