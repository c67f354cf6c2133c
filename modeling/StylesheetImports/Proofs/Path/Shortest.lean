import StylesheetImports.Proofs.Path.Relative

set_option autoImplicit false

namespace StylesheetImports

namespace Component

theorem route_eq_nil_iff {here there : List Component} : route here there = [] ↔ here = there := by
  obtain ⟨takes, left, right⟩ := shared_spec there here
  rw [← List.length_eq_zero_iff, length_route]
  constructor
  · intro none
    rw [List.take_of_length_le (by omega), List.take_of_length_le (by omega)] at takes
    exact takes.symm
  · rintro rfl
    have whole := (length_le_shared_iff here here).mpr (List.prefix_refl here)
    omega

theorem shared_concat (there here : List Component) (step : Component) :
    shared there here <= shared there (here ++ [step]) ∧ shared there (here ++ [step]) <= shared there here + 1 := by
  have none (l : List Component) : shared l [] = 0 := by cases l <;> rfl
  induction there generalizing here with
  | nil => simp [shared]
  | cons first there ih =>
    cases here with
    | nil =>
      rw [none, List.nil_append, shared, none]
      split <;> simp
    | cons other here =>
      rw [List.cons_append, shared, shared]
      split
      · have later := ih here
        omega
      · simp

theorem length_route_concat (there here : List Component) (step : Component) :
    (route here there).length <= (route (here ++ [step]) there).length + 1 ∧
      (route (here ++ [step]) there).length <= (route here there).length + 1 := by
  have fits := (shared_spec there here).2
  have fits' := (shared_spec there (here ++ [step])).2
  have nearly := shared_concat there here step
  rw [length_route, length_route, List.length_append, List.length_singleton] at *
  omega

theorem push_cases (stack : List Component) (step : Component) :
    push stack step = stack ∨ (∃ c, push stack step = c :: stack) ∨ ∃ c, stack = c :: push stack step := by
  unfold push
  split
  · exact .inl rfl
  · exact .inr (.inr ⟨_, rfl⟩)
  · exact .inl rfl
  · exact .inr (.inl ⟨_, rfl⟩)
  · exact .inr (.inl ⟨_, rfl⟩)

theorem length_route_push (there stack : List Component) (step : Component) :
    (route stack.reverse there).length <= (route (push stack step).reverse there).length + 1 := by
  rcases push_cases stack step with same | ⟨c, pushed⟩ | ⟨c, popped⟩
  · rw [same]
    omega
  · rw [pushed, List.reverse_cons]
    exact (length_route_concat there stack.reverse c).1
  · have short := (length_route_concat there (push stack step).reverse c).2
    rwa [← List.reverse_cons, ← popped] at short

theorem length_route_foldl (there stack steps : List Component) :
    (route stack.reverse there).length <= (route (steps.foldl push stack).reverse there).length + steps.length := by
  induction steps generalizing stack with
  | nil => simp
  | cons step steps ih =>
    have first := length_route_push there stack step
    have later := ih (push stack step)
    rw [List.foldl_cons, List.length_cons]
    omega

end Component

namespace Path

open Component

/-- `fork` is the deepest directory that contains both paths. -/
structure IsFork (fork p q : Path) : Prop where
  left : fork.Contains p
  right : fork.Contains q
  deepest : ∀ dir : Path, dir.Contains p -> dir.Contains q -> dir.Contains fork

variable {target base : Path}

theorem length_route_le {q : Path} (relative : q.isAbsolute = false)
    (leads : (base.join q).normalize = target.normalize) :
    (route (fold base.components) (fold target.components)).length <= q.components.length := by
  have steps := congrArg components leads
  rw [components_normalize, components_normalize, fold_components_join base relative, fold_append] at steps
  have walk := length_route_foldl (fold target.components) (fold base.components).reverse q.components
  rw [List.reverse_reverse, steps, route_eq_nil_iff.mpr rfl] at walk
  simpa using walk

theorem exists_isFork (ht : target.isAbsolute = true) (hb : base.isAbsolute = true) :
    ∃ (up : Nat) (names : List Bytes) (fork : Path), (∀ n ∈ names, IsName n) ∧
      route (fold base.components) (fold target.components) = List.replicate up .parent ++ names.map .name ∧
      fork.IsFork base target ∧
      base.normalize.components.length = fork.normalize.components.length + up ∧
      target.normalize.components = fork.normalize.components ++ names.map .name := by
  obtain ⟨fork, left, right, here, there, count, steps⟩ := exists_fork ht hb
  have isName : ∀ n ∈ fork, IsName n := by
    intro n mem
    refine isSegment_of_mem_fold hb ?_
    rw [here, List.tail_cons]
    exact List.mem_map_of_mem (List.mem_append_left left mem)
  have isName' : ∀ n ∈ right, IsName n := by
    intro n mem
    refine isSegment_of_mem_fold ht ?_
    rw [there, List.tail_cons]
    exact List.mem_map_of_mem (List.mem_append_right fork mem)
  have isNormal : IsNormal (.root :: fork.map .name) := .absolute isName
  have top : (ofComponents (.root :: fork.map .name)).normalize.components = .root :: fork.map .name := by
    rw [components_normalize, components_ofComponents isNormal, fold_of_isNormal isNormal]
  have leading (more : List Bytes) : .root :: fork.map .name <+: .root :: (fork ++ more).map Component.name := by
    rw [List.map_append]
    exact List.prefix_append (Component.root :: fork.map .name) _
  refine ⟨left.length, right, ofComponents (.root :: fork.map .name), isName', steps, ⟨?_, ?_, ?_⟩, ?_, ?_⟩
  · rw [Contains, top, components_normalize, here]
    exact leading left
  · rw [Contains, top, components_normalize, there]
    exact leading right
  · intro dir contains contains'
    rw [Contains, components_normalize base] at contains
    rw [Contains, components_normalize target] at contains'
    -- What both have in front is shared, and no more than the fork is.
    have short : dir.normalize.components.length <= fork.length + 1 := by
      obtain ⟨rest, whole⟩ := contains'
      have along := shared_prefix contains rest
      rw [whole, count] at along
      omega
    rw [Contains, top]
    exact List.prefix_of_prefix_length_le contains (here ▸ leading left) (by simpa using short)
  · rw [top, components_normalize, here]
    simp
    omega
  · rw [top, components_normalize, there, List.map_append, List.cons_append]

/-- A relative path leads from its base to its target: up to the deepest directory that contains both, and down from
there by names. It is empty exactly if the two are one, and no relative path that leads there has fewer steps. -/
theorem relativeTo_shortest (ht : target.isAbsolute = true) (hb : base.isAbsolute = true) :
    (base.join (target.relativeTo base)).normalize = target.normalize ∧
      (target.relativeTo base = { bytes := [] } ↔ target.normalize = base.normalize) ∧
      (∃ (up : Nat) (names : List Bytes) (fork : Path), (∀ n ∈ names, IsName n) ∧
        (target.relativeTo base).components = List.replicate up .parent ++ names.map .name ∧
          fork.IsFork base target ∧
          base.normalize.components.length = fork.normalize.components.length + up ∧
          target.normalize.components = fork.normalize.components ++ names.map .name) ∧
      ∀ q : Path, q.isAbsolute = false -> (base.join q).normalize = target.normalize ->
        (target.relativeTo base).components.length <= q.components.length := by
  have segment := isSegment_of_mem_route ht hb
  have written := relativeTo_eq_route ht hb
  have relative : (target.relativeTo base).isAbsolute = false := by
    rw [written]
    exact isAbsolute_ofComponents_relative segment
  have steps : (target.relativeTo base).components = route (fold base.components) (fold target.components) := by
    rw [written]
    exact components_ofComponents_relative segment
  refine ⟨?_, ?_, ?_, fun q relative' leads => ?_⟩
  · rw [normalize, fold_components_join base relative, fold_append, steps, foldl_push_route ht hb, List.reverse_reverse]
    rfl
  · constructor
    · intro empty
      have none : route (fold base.components) (fold target.components) = [] := by
        rw [← steps, empty]
        rfl
      rw [normalize, normalize, route_eq_nil_iff.mp none]
    · intro same
      have folded := congrArg components same
      rw [components_normalize, components_normalize] at folded
      rw [written, route_eq_nil_iff.mpr folded.symm]
      rfl
  · rw [steps]
    exact exists_isFork ht hb
  · rw [steps]
    exact length_route_le relative' leads

-- From a directory below a sibling, beyond a `..` that the root stops.
theorem relativeTo_shortest_sibling :
    let target := Path.ofString "/../w/img/./a.png"
    let base := Path.ofString "/w/s/x/.."
    target.isAbsolute = true ∧ base.isAbsolute = true ∧ target.relativeTo base = "../img/a.png" ∧
      (base.join (target.relativeTo base)).normalize = target.normalize ∧
      (base.join "./../../w/img/a.png").normalize = target.normalize ∧
      (target.relativeTo base).components.length <= (Path.ofString "./../../w/img/a.png").components.length := by
  intro target base
  have ht : target.isAbsolute = true := by decide +kernel
  have hb : base.isAbsolute = true := by decide +kernel
  obtain ⟨leads, -, -, shortest⟩ := relativeTo_shortest ht hb
  have around : (base.join "./../../w/img/a.png").normalize = target.normalize := by decide +kernel
  exact ⟨ht, hb, by decide +kernel, leads, around, shortest _ (by decide +kernel) around⟩

end Path

end StylesheetImports
