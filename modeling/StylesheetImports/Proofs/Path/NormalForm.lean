import Mathlib.Data.List.Induction
import StylesheetImports.Proofs.Path.Components

set_option autoImplicit false

namespace StylesheetImports

namespace Component

theorem fold_append (a b : List Component) : fold (a ++ b) = (b.foldl push (fold a).reverse).reverse := by
  simp [fold]

theorem push_name (stack : List Component) (bytes : Bytes) : push stack (.name bytes) = .name bytes :: stack := by
  cases stack <;> rfl

theorem push_current (stack : List Component) : push stack .current = stack := by
  cases stack <;> rfl

theorem mem_push {stack : List Component} {c step : Component} (h : c ∈ push stack step) :
    c ∈ stack ∨ c = step ∧ step ≠ .current := by
  unfold push at h
  split at h
  · exact .inl h
  · exact .inl (List.mem_cons_of_mem _ h)
  · exact .inl h
  · rcases List.mem_cons.mp h with rfl | mem
    · exact .inr ⟨rfl, by simp⟩
    · exact .inl mem
  next noCurrent _ _ _ =>
    rcases List.mem_cons.mp h with rfl | mem
    · exact .inr ⟨rfl, noCurrent⟩
    · exact .inl mem

theorem mem_fold {c : Component} {steps : List Component} (h : c ∈ fold steps) : c ∈ steps ∧ c ≠ .current := by
  have along (stack : List Component) (mem : c ∈ steps.foldl push stack) :
      c ∈ stack ∨ c ∈ steps ∧ c ≠ .current := by
    clear h
    induction steps generalizing stack with
    | nil => exact .inl mem
    | cons step steps ih =>
      rcases ih _ mem with pushed | ⟨later, apart⟩
      · rcases mem_push pushed with held | ⟨rfl, apart⟩
        · exact .inl held
        · exact .inr ⟨List.mem_cons_self, apart⟩
      · exact .inr ⟨List.mem_cons_of_mem step later, apart⟩
  exact (along [] (List.mem_reverse.mp h)).resolve_left List.not_mem_nil

theorem foldl_push_names (stack : List Bytes) {steps : List Component}
    (h : ∀ c ∈ steps, c = .parent ∨ ∃ n, c = .name n) :
    ∃ names : List Bytes, steps.foldl push (stack.map .name ++ [.root]) = names.map .name ++ [.root] ∧
      ∀ n ∈ names, n ∈ stack ∨ .name n ∈ steps := by
  induction steps generalizing stack with
  | nil => exact ⟨stack, rfl, fun n hn => .inl hn⟩
  | cons c steps ih =>
    have later : ∀ d ∈ steps, d = .parent ∨ ∃ n, d = .name n :=
      fun d hd => h d (List.mem_cons_of_mem _ hd)
    rcases h c List.mem_cons_self with rfl | ⟨n, rfl⟩
    · -- A `..` takes the topmost name away; at the root it does nothing.
      cases stack with
      | nil =>
        obtain ⟨names, same, mem⟩ := ih [] later
        refine ⟨names, same, fun n hn => ?_⟩
        exact (mem n hn).imp_right (List.mem_cons_of_mem _)
      | cons m stack =>
        obtain ⟨names, same, mem⟩ := ih stack later
        refine ⟨names, same, fun n hn => ?_⟩
        exact (mem n hn).imp (List.mem_cons_of_mem _) (List.mem_cons_of_mem _)
    · obtain ⟨names, same, mem⟩ := ih (n :: stack) later
      refine ⟨names, same, fun m hm => ?_⟩
      rcases mem m hm with inStack | inSteps
      · rcases List.mem_cons.mp inStack with rfl | inStack
        · exact .inr List.mem_cons_self
        · exact .inl inStack
      · exact .inr (List.mem_cons_of_mem _ inSteps)

theorem foldl_push_map_name (names : List Bytes) (stack : List Component) :
    (names.map .name).foldl push stack = (names.map .name).reverse ++ stack := by
  induction names generalizing stack with
  | nil => rfl
  | cons n names ih =>
    rw [List.map_cons, List.foldl_cons, push_name, ih, List.reverse_cons, List.append_assoc,
      List.singleton_append]

theorem fold_names (names : List Bytes) : fold (.root :: names.map .name) = .root :: names.map .name := by
  have root : push [] .root = [.root] := rfl
  rw [fold, List.foldl_cons, root, foldl_push_map_name]
  simp

theorem push_replicate_parent (up : Nat) :
    push (List.replicate up .parent) .parent = List.replicate (up + 1) .parent := by
  cases up <;> rfl

theorem foldl_push_climb (up : Nat) (stack : List Bytes) {steps : List Component} (rootless : .root ∉ steps) :
    ∃ (up' : Nat) (names : List Bytes), steps.foldl push (stack.map .name ++ List.replicate up .parent) =
      names.map .name ++ List.replicate up' .parent := by
  induction steps generalizing up stack with
  | nil => exact ⟨up, stack, rfl⟩
  | cons c steps ih =>
    have later : .root ∉ steps := fun mem => rootless (List.mem_cons_of_mem c mem)
    cases c with
    | root => exact absurd List.mem_cons_self rootless
    | current => simpa [push_current] using ih up stack later
    | name n => simpa [push_name] using ih up (n :: stack) later
    | parent =>
      cases stack with
      | cons n stack => exact ih up stack later
      | nil =>
        -- Nothing is left to take back, so the run gets longer.
        simpa [push_replicate_parent] using ih (up + 1) [] later

theorem fold_climb (up : Nat) (names : List Bytes) :
    fold (List.replicate up .parent ++ names.map .name) = List.replicate up .parent ++ names.map .name := by
  have climbed : fold (List.replicate up .parent) = List.replicate up .parent := by
    induction up with
    | zero => rfl
    | succ up ih =>
      rw [List.replicate_succ', fold_append, ih, List.reverse_replicate, List.foldl_cons, List.foldl_nil,
        push_replicate_parent, List.reverse_replicate, List.replicate_succ']
  rw [fold_append, climbed, foldl_push_map_name]
  simp

theorem foldl_push_push {folded : List Component} (rootless : .root ∉ folded) {step : Component}
    (below : step ≠ .root) (stack : List Component) :
    (push folded step).reverse.foldl push stack = push (folded.reverse.foldl push stack) step := by
  cases step with
  | root => exact absurd rfl below
  | current => rw [push_current, push_current]
  | name n => rw [push_name, List.reverse_cons, List.foldl_append, List.foldl_cons, List.foldl_nil]
  | parent =>
    cases folded with
    | nil => rfl
    | cons top folded =>
      cases top with
      | root => exact absurd List.mem_cons_self rootless
      | name n =>
        -- The `..` takes back the name wherever the two are taken.
        rw [List.reverse_cons, List.foldl_append, List.foldl_cons, List.foldl_nil, push_name]
        rfl
      | current | parent => simp [push, List.foldl_append]

theorem foldl_push_fold {steps : List Component} (rootless : .root ∉ steps) (stack : List Component) :
    (fold steps).foldl push stack = steps.foldl push stack := by
  induction steps using List.reverseRecOn with
  | nil => rfl
  | append_singleton steps step ih =>
    obtain ⟨before, last⟩ : .root ∉ steps ∧ .root ∉ [step] := by simpa [not_or] using rootless
    have folded : .root ∉ (fold steps).reverse := fun mem => before (mem_fold (List.mem_reverse.mp mem)).1
    have below : step ≠ .root := fun same => last (List.mem_singleton.mpr same.symm)
    rw [fold_append, List.foldl_cons, List.foldl_nil, foldl_push_push folded below, List.reverse_reverse, ih before,
      List.foldl_append, List.foldl_cons, List.foldl_nil]

theorem fold_append_fold {b : List Component} (rootless : .root ∉ b) (a : List Component) :
    fold (a ++ fold b) = fold (a ++ b) := by
  rw [fold_append, fold_append, foldl_push_fold rootless]

/-- Steps in normal form: names behind the root, or behind a run of `..`. -/
inductive IsNormal : List Component -> Prop
  | absolute {names : List Bytes} (isName : ∀ n ∈ names, IsName n) : IsNormal (.root :: names.map .name)
  | relative (up : Nat) {names : List Bytes} (isName : ∀ n ∈ names, IsName n) :
      IsNormal (List.replicate up .parent ++ names.map .name)

end Component

namespace Path

open Component

theorem exists_fold_components {p : Path} (h : p.isAbsolute = true) :
    ∃ names : List Bytes, fold p.components = .root :: names.map .name ∧
      ∀ n ∈ names, .name n ∈ stepsOf p.bytes := by
  have plain : ∀ c ∈ stepsOf p.bytes, c = .parent ∨ ∃ n, c = .name n :=
    fun c hc => (isSegment_of_mem_stepsOf hc).eq_parent_or_name
  obtain ⟨names, same, mem⟩ := foldl_push_names [] plain
  refine ⟨names.reverse, ?_, ?_⟩
  · rw [components_of_absolute h, fold, List.foldl_cons]
    have root : push [] .root = [].map .name ++ [.root] := rfl
    rw [root, same]
    simp
  · intro n hn
    rcases mem n (List.mem_reverse.mp hn) with none | mem
    · exact absurd none List.not_mem_nil
    · exact mem

theorem isSegment_of_mem_fold {p : Path} (h : p.isAbsolute = true) {c : Component}
    (hc : c ∈ (fold p.components).tail) : c.IsSegment := by
  obtain ⟨names, same, mem⟩ := exists_fold_components h
  rw [same, List.tail_cons] at hc
  obtain ⟨n, hn, rfl⟩ := List.mem_map.mp hc
  exact isSegment_of_mem_stepsOf (mem n hn)

theorem components_normalize (p : Path) : p.normalize.components = fold p.components := by
  cases absolute : p.isAbsolute with
  | true =>
    have segment : ∀ c ∈ (fold p.components).tail, c.IsSegment := fun c => isSegment_of_mem_fold absolute
    obtain ⟨names, same, _⟩ := exists_fold_components absolute
    rw [same, List.tail_cons] at segment
    rw [normalize, same, components_ofComponents_absolute segment]
  | false =>
    have segment : ∀ c ∈ fold p.components, c.IsSegment := fun c mem =>
      (isSegment_of_mem_components absolute (mem_fold mem).1).resolve_left (mem_fold mem).2
    rw [normalize, components_ofComponents_relative segment]

theorem fold_components {p : Path} (normal : p.normalize = p) : fold p.components = p.components := by
  rw [← components_normalize, normal]

theorem fold_fold (p : Path) : fold (fold p.components) = fold p.components := by
  cases absolute : p.isAbsolute with
  | true =>
    obtain ⟨names, same, _⟩ := exists_fold_components absolute
    rw [same, fold_names]
  | false => exact fold_append_fold (root_not_mem_components absolute) []

theorem normalize_normalize (p : Path) : p.normalize.normalize = p.normalize := by
  rw [normalize, components_normalize, fold_fold]
  rfl

theorem isAbsolute_normalize {p : Path} (h : p.isAbsolute = true) : p.normalize.isAbsolute = true := by
  obtain ⟨names, same, _⟩ := exists_fold_components h
  rw [normalize, same]
  exact isAbsolute_ofComponents _

theorem isAbsolute_of_normalize {q : Path} (h : q.normalize.isAbsolute = true) : q.isAbsolute = true := by
  cases absolute : q.isAbsolute with
  | true => rfl
  | false =>
    have segment : ∀ c ∈ fold q.components, c.IsSegment := fun c mem =>
      (isSegment_of_mem_components absolute (mem_fold mem).1).resolve_left (mem_fold mem).2
    rw [normalize, isAbsolute_ofComponents_relative segment] at h
    exact h

theorem isSegment_of_mem_map {names : List Bytes} (h : ∀ n ∈ names, IsName n) :
    ∀ c ∈ names.map Component.name, c.IsSegment := by
  intro c mem
  obtain ⟨n, hn, rfl⟩ := List.mem_map.mp mem
  exact h n hn

theorem isSegment_of_mem_climb {up : Nat} {names : List Bytes} (h : ∀ n ∈ names, IsName n) :
    ∀ c ∈ List.replicate up .parent ++ names.map Component.name, c.IsSegment := by
  intro c mem
  rcases List.mem_append.mp mem with climb | name
  · rw [List.eq_of_mem_replicate climb]
    exact isSegment_parent
  · exact isSegment_of_mem_map h c name

theorem exists_fold (p : Path) :
    ∃ (up : Nat) (names : List Bytes), (∀ n ∈ names, IsName n) ∧ fold p.components =
      (if p.isAbsolute then [.root] else List.replicate up .parent) ++ names.map .name := by
  cases absolute : p.isAbsolute with
  | true =>
    obtain ⟨names, same, mem⟩ := exists_fold_components absolute
    exact ⟨0, names, fun n hn => isSegment_of_mem_stepsOf (mem n hn), same⟩
  | false =>
    obtain ⟨up, names, same⟩ := foldl_push_climb 0 [] (root_not_mem_components absolute)
    have folded : fold p.components = List.replicate up .parent ++ names.reverse.map .name := by
      have whole := congrArg List.reverse same
      simpa [fold] using whole
    refine ⟨up, names.reverse, fun n hn => ?_, folded⟩
    have mem : Component.name n ∈ fold p.components := by
      rw [folded]
      exact List.mem_append_right _ (List.mem_map_of_mem hn)
    exact (isSegment_of_mem_components absolute (mem_fold mem).1).resolve_left (by simp)

theorem isNormal_fold (p : Path) : IsNormal (fold p.components) := by
  obtain ⟨up, names, isName, same⟩ := exists_fold p
  rw [same]
  split
  · exact .absolute isName
  · exact .relative up isName

theorem components_ofComponents {steps : List Component} (h : IsNormal steps) :
    (ofComponents steps).components = steps := by
  cases h with
  | absolute isName => exact components_ofComponents_absolute (isSegment_of_mem_map isName)
  | relative up isName => exact components_ofComponents_relative (isSegment_of_mem_climb isName)

theorem fold_of_isNormal {steps : List Component} (h : IsNormal steps) : fold steps = steps := by
  cases h with
  | absolute => exact fold_names _
  | relative => exact fold_climb _ _

theorem normalize_eq_self_iff {p : Path} : p.normalize = p ↔ ∃ steps, IsNormal steps ∧ p = ofComponents steps := by
  constructor
  · intro normal
    exact ⟨_, isNormal_fold p, normal.symm⟩
  · rintro ⟨steps, isNormal, rfl⟩
    rw [normalize, components_ofComponents isNormal, fold_of_isNormal isNormal]

theorem mem_segments_normalize {p : Path} {segment : Bytes} (mem : segment ∈ segments p.normalize.bytes) :
    segment = [] ∨ ∃ c : Component, c.IsSegment ∧ c.text = segment := by
  have joined {steps : List Component} (h : ∀ c ∈ steps, c.IsSegment)
      (mem : segment ∈ segments (joinSegments (steps.map Component.text))) :
      segment = [] ∨ ∃ c : Component, c.IsSegment ∧ c.text = segment := by
    cases steps with
    | nil => exact .inl (List.mem_singleton.mp mem)
    | cons c steps =>
      rw [segments_joinSegments (by simp) h] at mem
      obtain ⟨d, hd, same⟩ := List.mem_map.mp mem
      exact .inr ⟨d, h d hd, same⟩
  obtain ⟨steps, isNormal, written⟩ := normalize_eq_self_iff.mp (normalize_normalize p)
  rw [written] at mem
  cases isNormal with
  | absolute isName =>
    rw [ofComponents, segments, ← List.nil_append (slash :: _), pieces_append_cons (by simp)] at mem
    rcases List.mem_append.mp mem with front | behind
    · exact .inl (List.mem_singleton.mp front)
    · exact joined (isSegment_of_mem_map isName) behind
  | relative up isName =>
    rw [ofComponents_relative (isSegment_of_mem_climb isName)] at mem
    exact joined (isSegment_of_mem_climb isName) mem

theorem foldl_push_components {p : Path} (relative : p.isAbsolute = false) (stack : List Component) :
    p.components.foldl push stack = (stepsOf p.bytes).foldl push stack := by
  rcases components_of_relative relative with steps | steps
  · rw [steps]
  · rw [steps, List.foldl_cons, push_current]

theorem fold_components_join (base : Path) {p : Path} (relative : p.isAbsolute = false) :
    fold (base.join p).components = fold (base.components ++ p.components) := by
  by_cases empty : base.bytes = []
  next =>
    have alone : base.join p = p := by simp [join, relative, empty]
    have none : base.components = [] := by rw [components, empty]
    rw [alone, none, List.nil_append]
  next =>
    rw [components_join_some empty relative, fold_append, fold_append, foldl_push_components relative]

theorem join_of_absolute (base : Path) {p : Path} (absolute : p.isAbsolute = true) : base.join p = p := by
  rw [join, if_pos absolute]

theorem isAbsolute_normalize_eq (p : Path) : p.normalize.isAbsolute = p.isAbsolute := by
  rw [Bool.eq_iff_iff]
  exact ⟨isAbsolute_of_normalize, isAbsolute_normalize⟩

theorem normalize_normalize_join (base p : Path) : (base.normalize.join p).normalize = (base.join p).normalize := by
  cases relative : p.isAbsolute with
  | true => rw [join_of_absolute _ relative, join_of_absolute _ relative]
  | false =>
    rw [normalize, fold_components_join _ relative, components_normalize, fold_append, fold_fold, ← fold_append,
      ← fold_components_join _ relative]
    rfl

theorem normalize_join_normalize (base p : Path) : (base.join p.normalize).normalize = (base.join p).normalize := by
  have still := isAbsolute_normalize_eq p
  cases relative : p.isAbsolute with
  | true =>
    rw [join_of_absolute _ relative, join_of_absolute _ (still.trans relative), normalize_normalize]
  | false =>
    rw [normalize, fold_components_join _ (still.trans relative), components_normalize,
      fold_append_fold (root_not_mem_components relative), ← fold_components_join _ relative]
    rfl

theorem normalize_join_congr {a b : Path} (same : a.normalize = b.normalize) (p : Path) :
    (a.join p).normalize = (b.join p).normalize := by
  rw [← normalize_normalize_join a, same, normalize_normalize_join]

theorem normalize_join_join (outer inner p : Path) :
    (outer.join (inner.join p)).normalize = ((outer.join inner).join p).normalize := by
  cases relative : p.isAbsolute with
  | true => rw [join_of_absolute inner relative, join_of_absolute outer relative, join_of_absolute _ relative]
  | false =>
    cases relative' : inner.isAbsolute with
    | true => rw [join_of_absolute outer (isAbsolute_join relative' p), join_of_absolute outer relative']
    | false =>
      have still : (inner.join p).isAbsolute = false := (isAbsolute_join_of_relative relative inner).trans relative'
      have rootless : .root ∉ inner.components ++ p.components := fun mem =>
        (List.mem_append.mp mem).elim (root_not_mem_components relative') (root_not_mem_components relative)
      have steps : fold (outer.join (inner.join p)).components = fold ((outer.join inner).join p).components :=
        calc fold (outer.join (inner.join p)).components
            = fold (outer.components ++ fold (inner.join p).components) := by
              rw [fold_components_join outer still, fold_append_fold (root_not_mem_components still)]
          _ = fold (outer.components ++ (inner.components ++ p.components)) := by
              rw [fold_components_join inner relative, fold_append_fold rootless]
          _ = fold ((outer.join inner).components ++ p.components) := by
              rw [← List.append_assoc, fold_append, ← fold_components_join outer relative', ← fold_append]
          _ = fold ((outer.join inner).join p).components := (fold_components_join _ relative).symm
      rw [normalize, steps, normalize]

/-- The normal form is taken once and for all. No `.` is left in it, `..` stands only in front of a relative path, it
begins at the root if the path does, and it leaves a path alone that is made of such steps. Of a joined path either
part may be taken in normal form first. -/
theorem normalize_settles (p q : Path) :
    p.normalize.normalize = p.normalize ∧
      (∀ segment ∈ segments p.normalize.bytes, segment ≠ [dot]) ∧
      (∃ (up : Nat) (names : List Bytes), (∀ n ∈ names, IsName n) ∧ p.normalize.components =
        (if p.isAbsolute then [.root] else List.replicate up .parent) ++ names.map .name) ∧
      p.normalize.isAbsolute = p.isAbsolute ∧
      (p.normalize = p ↔ ∃ steps, IsNormal steps ∧ p = ofComponents steps) ∧
      (p.join q).normalize = (p.normalize.join q).normalize ∧
      (p.join q).normalize = (p.join q.normalize).normalize := by
  refine ⟨normalize_normalize p, fun segment mem => ?_, ?_, isAbsolute_normalize_eq p, normalize_eq_self_iff,
    (normalize_normalize_join p q).symm, (normalize_join_normalize p q).symm⟩
  · rcases mem_segments_normalize mem with rfl | ⟨c, isSegment, rfl⟩
    · simp
    · exact isSegment.text_ne_dot
  · rw [components_normalize]
    exact exists_fold p

-- A `..` that takes a name back, and others that have none to take.
theorem normalize_settles_climbing :
    let p := Path.ofString "../a/./b/../../.."
    let q := Path.ofString "c/../../d"
    p.normalize = "../.." ∧ [dot, dot] ∈ segments p.normalize.bytes ∧ [dot, dot] ≠ [dot] ∧
      (p.join q).normalize = "../../../d" ∧ (p.join q).normalize = (p.normalize.join q).normalize ∧
      (p.join q).normalize = (p.join q.normalize).normalize := by
  intro p q
  have climb : [dot, dot] ∈ segments p.normalize.bytes := by decide +kernel
  obtain ⟨-, noDot, -, -, -, left, right⟩ := normalize_settles p q
  exact ⟨by decide +kernel, climb, noDot _ climb, by decide +kernel, left, right⟩

end Path

end StylesheetImports
