import Mathlib.Data.List.Flatten
import StylesheetImports.Proofs.Path.Ancestors

set_option autoImplicit false

namespace StylesheetImports

open Component

theorem text_stepsOf_sublist (bytes : Bytes) : ((stepsOf bytes).map Component.text).Sublist (segments bytes) := by
  rw [stepsOf]
  induction segments bytes with
  | nil => exact .slnil
  | cons segment rest ih =>
    cases read : ofSegment? segment with
    | none =>
      rw [List.filterMap_cons_none read]
      exact ih.cons segment
    | some c =>
      rw [List.filterMap_cons_some read, List.map_cons, text_of_ofSegment? read]
      exact ih.cons_cons segment

theorem push_sublist (stack : List Component) (step : Component) : (push stack step).Sublist (step :: stack) := by
  unfold push
  split
  · exact List.sublist_cons_self _ _
  · exact (List.sublist_cons_self _ _).trans (List.sublist_cons_self _ _)
  · exact List.sublist_cons_self _ _
  · exact List.Sublist.refl _
  · exact List.Sublist.refl _

theorem fold_sublist (steps : List Component) : (fold steps).Sublist steps := by
  have along (stack : List Component) : (steps.foldl push stack).Sublist (steps.reverse ++ stack) := by
    induction steps generalizing stack with
    | nil => exact List.Sublist.refl _
    | cons step steps ih =>
      have pushed := (push_sublist stack step).append_left steps.reverse
      rw [List.foldl_cons, List.reverse_cons, List.append_assoc, List.singleton_append]
      exact (ih (push stack step)).trans pushed
  have whole := (along []).reverse
  rwa [List.append_nil, List.reverse_reverse] at whole

namespace Path

variable {a b p : Path}

theorem sublist_normalize (absolute : p.isAbsolute = true) : p.normalize.bytes.Sublist p.bytes := by
  obtain ⟨rest, written⟩ := exists_bytes absolute
  obtain ⟨names, same, _⟩ := exists_fold_components absolute
  have texts : (names.map Component.name).map Component.text = names := by
    rw [List.map_map]
    exact List.map_id names
  have within : names.Sublist (segments rest) := by
    have folded := fold_sublist p.components
    rw [same, components_of_absolute absolute, written, stepsOf_slash] at folded
    have steps := (List.cons_sublist_cons.mp folded).map Component.text
    rw [texts] at steps
    exact steps.trans (text_stepsOf_sublist rest)
  rw [normalize, same, ofComponents, texts, written]
  by_cases none : names = []
  next =>
    rw [none]
    exact (List.nil_sublist rest).cons_cons slash
  next =>
    have some : segments rest ≠ [] := pieces_ne_nil _ _
    have joined := within.flatMap (slash :: ·)
    rw [flatMap_slash none, flatMap_slash some, joinSegments_segments] at joined
    exact joined

theorem absolutize_of_absolute (absolute : p.isAbsolute = true) (dir : Path) : dir.absolutize p = p.normalize := by
  rw [absolutize, join_of_absolute dir absolute]

theorem isAbsolute_absolutize (absolute : a.isAbsolute = true) (p : Path) : (a.absolutize p).isAbsolute = true :=
  isAbsolute_normalize (isAbsolute_join absolute p)

theorem absolute_of_absolutize (fixed : (a.absolutize p).isAbsolute = true) :
    a.isAbsolute = true ∨ p.isAbsolute = true := by
  cases relative : p.isAbsolute with
  | true => exact .inr rfl
  | false =>
    have joined := isAbsolute_of_normalize fixed
    rw [isAbsolute_join_of_relative relative] at joined
    exact .inl joined

theorem normalize_absolutize (a p : Path) : (a.absolutize p).normalize = a.absolutize p :=
  normalize_normalize (a.join p)

theorem segments_join (some : a.bytes ≠ []) (name : IsName p.bytes) :
    ∃ before, (segments a.bytes = before ∨ segments a.bytes = before ++ [[]]) ∧
      segments (a.join p).bytes = before ++ [p.bytes] := by
  have alone : segments p.bytes = [p.bytes] := by
    refine pieces_of_not fun byte mem => ?_
    have apart : byte ≠ slash := by
      rintro rfl
      exact name.1 mem
    simpa using apart
  rw [join, if_neg (by simp [isAbsolute_of_isName name])]
  split
  next closed =>
    have last : a.bytes.getLast? = .some slash := by simpa [some] using closed
    obtain ⟨kept, whole⟩ := List.getLast?_eq_some_iff.mp last
    have cut : segments a.bytes = segments kept ++ [[]] := by
      rw [whole]
      exact pieces_append_cons (by simp) kept []
    refine ⟨segments kept, .inr cut, ?_⟩
    exact pieces_append cut alone
  next =>
    refine ⟨segments a.bytes, .inl rfl, ?_⟩
    rw [← alone]
    exact pieces_append_cons (by simp) a.bytes p.bytes

end Path

end StylesheetImports
