import StylesheetImports.Proofs.Path.Names
import StylesheetImports.Proofs.Rebase.Reference

set_option autoImplicit false

namespace StylesheetImports

open Utf8

namespace Component

variable {before here : List Component} {step : Component}

theorem shared_append (apart : ¬before ++ [step] <+: here) (later : List Component) :
    shared (before ++ step :: later) here = shared before here := by
  induction before generalizing here with
  | nil =>
    cases here with
    | nil => rfl
    | cons other here =>
      have other : step ≠ other := by
        rintro rfl
        exact apart ⟨here, rfl⟩
      rw [List.nil_append, shared, if_neg other]
      rfl
  | cons first before ih =>
    cases here with
    | nil => rfl
    | cons other here =>
      rw [List.cons_append, shared, shared]
      split
      next same =>
        subst same
        rw [ih]
        rintro ⟨rest, same⟩
        exact apart ⟨rest, by rw [List.cons_append, List.cons_append, same]⟩
      next => rfl

theorem route_append (apart : ¬before ++ [step] <+: here) (later : List Component) :
    route here (before ++ step :: later) =
      List.replicate (here.length - shared before here) .parent ++ before.drop (shared before here) ++
        step :: later := by
  have fits := (shared_spec before here).2.1
  rw [route, shared_append apart, List.drop_append_of_le_length fits, List.append_assoc]

theorem length_route_within (within : before ++ [step] <+: here) (later : List Component) :
    ∃ common, common <= later.length ∧ before.length + 1 <= here.length ∧
      (route here (before ++ step :: later)).length =
        (here.length - (before.length + 1 + common)) + (later.length - common) := by
  have common := shared_prefix within later
  have fits := (shared_spec later (here.drop (before ++ [step]).length)).2.1
  have long := within.length_le
  rw [List.length_append, List.length_singleton] at common long
  refine ⟨_, fits, long, ?_⟩
  rw [List.append_assoc, List.singleton_append] at common
  rw [length_route, common, List.length_append, List.length_cons]
  simp only [List.length_append, List.length_singleton]
  omega

theorem length_route_beside (within : before <+: here) (outside : ¬before ++ [step] <+: here)
    (later : List Component) :
    (route here (before ++ step :: later)).length = (here.length - before.length) + (later.length + 1) := by
  have common : shared before here = before.length := by simpa [shared] using shared_prefix within []
  rw [length_route, shared_append outside, common, List.length_append, List.length_cons]
  omega

theorem not_prefix_of_ne {other : Component} (within : before ++ [step] <+: here) (apart : step ≠ other) :
    ¬before ++ [other] <+: here := by
  intro also
  have same := List.prefix_of_prefix_length_le within also (by simp)
  have lists := same.eq_of_length (by simp)
  exact apart (List.cons.inj (List.append_cancel_left lists)).1

end Component

namespace Path

open Component

def below (base target : Path) : List (List Char) :=
  let there := target.normalize.components
  (there.drop (shared there base.normalize.components)).map shown

variable {target base : Path}

theorem toSlash_relativeTo (ht : target.isAbsolute = true) (hb : base.isAbsolute = true) :
    (target.relativeTo base).toSlash =
      ['/'].intercalate ((route (fold base.components) (fold target.components)).map shown) := by
  have segment := isSegment_of_mem_route ht hb
  have noRoot : (route (fold base.components) (fold target.components)).filter (· ≠ .root) =
      route (fold base.components) (fold target.components) := by
    rw [List.filter_eq_self]
    intro c hc
    rcases (segment c hc).eq_parent_or_name with rfl | ⟨n, rfl⟩ <;> rfl
  rw [relativeTo_eq_route ht hb, toSlash, components_ofComponents_relative segment, noRoot]
  rfl

theorem exists_climb (ht : target.isAbsolute = true) (hb : base.isAbsolute = true)
    (text : ∃ t, target.bytes = encode t) :
    ∃ up, (route (fold base.components) (fold target.components)).map shown =
        List.replicate up ['.', '.'] ++ below base target ∧
      (up = 0 ↔ base.Contains target) ∧ ∀ n ∈ below base target, IsOrdinary n ∧ '/' ∉ n := by
  obtain ⟨names, hnames, ordinary⟩ := exists_names ht text
  obtain ⟨here, hhere, _⟩ := exists_fold_components hb
  let common := shared (fold target.components) (fold base.components)
  have one : 1 <= common := by
    simp only [common, hnames, hhere, shared, if_true]
    omega
  have down : below base target = ((fold target.components).drop common).map shown := by
    rw [below, components_normalize, components_normalize]
  refine ⟨(fold base.components).length - common, ?_, ?_, ?_⟩
  · rw [route, List.map_append, List.map_replicate, down, shown_parent]
  · rw [contains_iff, ← length_le_shared_iff]
    exact Nat.sub_eq_zero_iff_le
  · intro n hn
    rw [down] at hn
    obtain ⟨c, hc, rfl⟩ := List.mem_map.mp hn
    have inNames : c ∈ names.map ofName := by
      have tail := (List.drop_sublist_drop_left (fold target.components) one).subset hc
      rwa [hnames, List.drop_one, List.tail_cons] at tail
    obtain ⟨n, named, rfl⟩ := List.mem_map.mp inNames
    rw [shown_ofName]
    exact ordinary n named

end Path

namespace Reference

open Lexeme

def plain (relative : List Char) : List Char :=
  if relative = [] then ['.'] else relative

theorem written_eq_escape (relative : List Char) : written relative = escape (plain relative) := by
  unfold written plain
  split
  next => decide
  next => rfl

theorem unescape_written (relative : List Char) : unescape (written relative) = plain relative := by
  rw [written_eq_escape, unescape_escape]

end Reference

end StylesheetImports
