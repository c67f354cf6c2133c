import Mathlib.Data.List.Infix
import Mathlib.Data.List.Induction
import StylesheetImports.Proofs.Path.Child

set_option autoImplicit false

namespace StylesheetImports

namespace Component

variable {steps : List Component} {c : Component}

theorem isNormal_of_front {before : List Component} (h : IsNormal steps) (first : before <+: steps) :
    IsNormal before := by
  cases h with
  | absolute isName =>
    cases before with
    | nil => exact .relative 0 (List.forall_mem_nil _)
    | cons top before =>
      obtain ⟨rfl, behind⟩ := List.cons_prefix_cons.mp first
      obtain ⟨names, front, rfl⟩ := List.prefix_map_iff.mp behind
      exact .absolute fun n mem => isName n (front.subset mem)
  | @relative up names isName =>
    rw [List.prefix_iff_eq_take.mp first, List.take_append, List.take_replicate, ← List.map_take]
    exact .relative _ fun n mem => isName n (List.mem_of_mem_take mem)

theorem IsNormal.concat_cases (h : IsNormal (steps ++ [c])) :
    steps = [] ∧ c = .root ∨ (∃ rest, steps = .root :: rest ∧ ∀ d ∈ rest ++ [c], d.IsSegment) ∨
      ∀ d ∈ steps ++ [c], d.IsSegment := by
  generalize whole : steps ++ [c] = all at h
  cases h with
  | relative up isName => exact .inr (.inr (Path.isSegment_of_mem_climb isName))
  | absolute isName =>
    cases steps with
    | nil => exact .inl ⟨rfl, (List.cons.inj whole).1⟩
    | cons top rest =>
      rw [List.cons_append] at whole
      obtain ⟨rfl, behind⟩ := List.cons.inj whole
      refine .inr (.inl ⟨rest, rfl, ?_⟩)
      rw [behind]
      exact Path.isSegment_of_mem_map isName

theorem IsNormal.eq_nil_of_root (h : IsNormal (steps ++ [.root])) : steps = [] := by
  have noSegment {more : List Component} (segment : ∀ d ∈ more ++ [.root], d.IsSegment) : False :=
    (segment .root (by simp)).1 List.mem_cons_self
  rcases h.concat_cases with ⟨none, _⟩ | ⟨_, _, segment⟩ | segment
  · exact none
  · exact (noSegment segment).elim
  · exact (noSegment segment).elim

end Component

namespace Path

open Component

variable {steps : List Component} {c : Component} {p dir : Path} {name : Bytes}

theorem ofComponents_inj {others : List Component} (h : IsNormal steps) (h' : IsNormal others) :
    ofComponents steps = ofComponents others ↔ steps = others := by
  refine ⟨fun same => ?_, congrArg ofComponents⟩
  rw [← components_ofComponents h, same, components_ofComponents h']

theorem bytes_ofComponents_ne_nil (h : IsNormal steps) (some : steps ≠ []) : (ofComponents steps).bytes ≠ [] := by
  intro empty
  have read := components_ofComponents h
  rw [components, empty] at read
  exact some read.symm

theorem parent?_ofComponents_relative (h : ∀ d ∈ steps ++ [c], d.IsSegment) :
    (ofComponents (steps ++ [c])).parent? = some (ofComponents steps) := by
  have before : ∀ d ∈ steps, d.IsSegment := fun d mem => h d (List.mem_append_left [c] mem)
  have relative := isAbsolute_ofComponents_relative h
  have cut := segments_joinSegments (by simp) h
  rw [ofComponents_relative h] at relative ⊢
  rw [ofComponents_relative before]
  generalize joinSegments ((steps ++ [c]).map Component.text) = bytes at relative cut
  cases bytes with
  | nil =>
    -- An empty path has one segment, which is empty; no step is written so.
    have lone : ∃ d ∈ steps ++ [c], d.text = [] := List.mem_map.mp (cut ▸ List.mem_singleton.mpr rfl)
    obtain ⟨d, mem, empty⟩ := lone
    exact absurd empty (h d mem).text_ne_nil
  | cons b rest =>
    have noSlash : b ≠ slash := by simpa [isAbsolute] using relative
    rw [parent?]
    simp only
    rw [if_neg noSlash, cut]
    cases steps with
    | nil => rfl
    | cons d steps =>
      have behind : ∀ e ∈ steps ++ [c], e.IsSegment := fun e mem => h e (List.mem_cons_of_mem d mem)
      simp only [List.cons_append, List.map_cons]
      rw [dropLastComponent_text behind]

theorem parent?_of_isNormal (h : IsNormal (steps ++ [c])) (below : c ≠ .root) :
    (ofComponents (steps ++ [c])).parent? = some (ofComponents steps) := by
  rcases h.concat_cases with ⟨_, root⟩ | ⟨rest, rfl, segment⟩ | segment
  · exact absurd root below
  · exact parent?_ofComponents segment
  · exact parent?_ofComponents_relative segment

theorem exists_of_parent? (normal : p.normalize = p) (parent : p.parent? = some dir) :
    ∃ steps c, IsNormal (steps ++ [c]) ∧ p = ofComponents (steps ++ [c]) ∧ dir = ofComponents steps := by
  obtain ⟨steps, h, rfl⟩ := normalize_eq_self_iff.mp normal
  rcases List.eq_nil_or_concat steps with rfl | ⟨front, c, rfl⟩
  · cases parent
  · rw [List.concat_eq_append] at *
    by_cases top : c = .root
    next =>
      subst top
      rw [h.eq_nil_of_root] at parent
      cases parent
    next =>
      rw [parent?_of_isNormal h top] at parent
      exact ⟨front, c, h, rfl, (Option.some.inj parent).symm⟩

theorem normalize_parent? (normal : p.normalize = p) (parent : p.parent? = some dir) : dir.normalize = dir := by
  obtain ⟨steps, c, h, rfl, rfl⟩ := exists_of_parent? normal parent
  exact normalize_eq_self_iff.mpr ⟨steps, isNormal_of_front h (List.prefix_append _ _), rfl⟩

theorem eq_of_parent?_eq {q : Path} (normal : p.normalize = p) (normal' : q.normalize = q)
    (parent : p.parent? = some dir) (parent' : q.parent? = some dir) (named : p.fileName? = some name)
    (named' : q.fileName? = some name) : p = q := by
  obtain ⟨steps, c, h, rfl, above⟩ := exists_of_parent? normal parent
  obtain ⟨steps', c', h', rfl, above'⟩ := exists_of_parent? normal' parent'
  have front : IsNormal steps := isNormal_of_front h (List.prefix_append _ _)
  have front' : IsNormal steps' := isNormal_of_front h' (List.prefix_append _ _)
  have same : steps = steps' := (ofComponents_inj front front').mp (above.symm.trans above')
  rw [fileName?_eq_some, components_ofComponents h, List.getLast?_concat] at named
  rw [fileName?_eq_some, components_ofComponents h', List.getLast?_concat] at named'
  rw [same, Option.some.inj named, Option.some.inj named']

theorem mem_tail_inits {before : List Component} : before ∈ steps.inits.tail ↔ before ≠ [] ∧ before <+: steps := by
  cases steps with
  | nil => simp
  | cons c steps =>
    rw [List.inits_cons, List.tail_cons]
    cases before with
    | nil => simp
    | cons d before => simp [List.cons_prefix_cons, and_comm, eq_comm]

theorem ancestorsFrom_ofComponents (h : IsNormal steps) {fuel : Nat} (enough : steps.length <= fuel) :
    ancestorsFrom fuel (ofComponents steps) =
      (steps.inits.tail.map ofComponents).reverse ++ if .root ∈ steps then [] else [{ bytes := [] }] := by
  induction steps using List.reverseRecOn generalizing fuel with
  | nil => cases fuel <;> rfl
  | append_singleton steps c ih =>
    cases fuel with
    | zero => simp at enough
    | succ fuel =>
      by_cases top : c = .root
      next =>
        -- There is nothing above the root.
        subst top
        rw [h.eq_nil_of_root]
        rfl
      next =>
        have inits : (steps ++ [c]).inits.tail = steps.inits.tail ++ [steps ++ [c]] := by
          rw [List.inits_append]
          cases steps <;> simp
        have still : .root ∈ steps ++ [c] ↔ .root ∈ steps := by simp [Ne.symm top]
        rw [ancestorsFrom, parent?_of_isNormal h top]
        simp only
        rw [ih (isNormal_of_front h (List.prefix_append _ _)) (by simpa using enough), inits]
        simp [still]

theorem length_le_joinSegments (h : ∀ c ∈ steps, c.IsSegment) :
    steps.length <= (joinSegments (steps.map Component.text)).length := by
  induction steps using List.reverseRecOn with
  | nil => exact Nat.le_refl 0
  | append_singleton steps c ih =>
    have busy : 1 <= c.text.length := List.length_pos_iff.mpr (h c (by simp)).text_ne_nil
    have before := ih fun d mem => h d (List.mem_append_left [c] mem)
    by_cases none : steps = []
    next =>
      rw [none]
      simpa [joinSegments] using busy
    next =>
      rw [List.map_append, List.map_singleton, joinSegments_concat (by simpa using none)]
      simp only [List.length_append, List.length_cons, List.length_nil]
      omega

theorem length_le_bytes (h : IsNormal steps) : steps.length <= (ofComponents steps).bytes.length := by
  cases h with
  | absolute isName =>
    rw [ofComponents, List.length_cons, List.length_cons]
    exact Nat.succ_le_succ (length_le_joinSegments (isSegment_of_mem_map isName))
  | relative up isName =>
    rw [ofComponents_relative (isSegment_of_mem_climb isName)]
    exact length_le_joinSegments (isSegment_of_mem_climb isName)

theorem ancestors_ofComponents (h : IsNormal steps) :
    (ofComponents steps).ancestors =
      (steps.inits.tail.map ofComponents).reverse ++ if .root ∈ steps then [] else [{ bytes := [] }] := by
  rw [ancestors, ancestorsFrom_ofComponents h (length_le_bytes h)]

end Path

end StylesheetImports
