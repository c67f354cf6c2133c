import StylesheetImports.Proofs.Rebase.Tracing

set_option autoImplicit false

namespace StylesheetImports

open Utf8

namespace Edit

variable {text : List Char} {edits other : List Edit}

theorem le_of_mem_selectedFrom {length cursor : Nat} (ordered : ∀ e ∈ edits, e.span.start <= e.span.stop)
    {e : Edit} (he : e ∈ selectedFrom length cursor edits) : cursor <= e.span.start ∧ e.span.stop <= length := by
  induction edits generalizing cursor with
  | nil => exact absurd he List.not_mem_nil
  | cons first edits ih =>
    have later := fun e he => ordered e (List.mem_cons_of_mem first he)
    rw [selectedFrom] at he
    split_ifs at he with dropped
    · exact ih later he
    · simp only [Bool.or_eq_true, decide_eq_true_eq, not_or, Nat.not_lt] at dropped
      rcases List.mem_cons.mp he with rfl | he
      · exact dropped
      · have first_ := ordered first List.mem_cons_self
        have behind := ih later he
        omega

theorem selectedFrom_ascending {length cursor : Nat} (ordered : ∀ e ∈ edits, e.span.start <= e.span.stop) :
    (selectedFrom length cursor edits).Pairwise fun a b => a.span.stop <= b.span.start := by
  induction edits generalizing cursor with
  | nil => exact List.Pairwise.nil
  | cons first edits ih =>
    have later := fun e he => ordered e (List.mem_cons_of_mem first he)
    rw [selectedFrom]
    split_ifs
    · exact ih later
    · exact (ih later).cons fun b hb => (le_of_mem_selectedFrom later hb).1

theorem applyFrom_map (text : List Char) (cursor : Nat) (map : OffsetMap) (edits : List Edit) :
    (applyFrom text cursor map edits).2 =
      (selectedFrom (size text) cursor edits).foldl (fun map e => map.push e.span (size e.replacement)) map := by
  induction edits generalizing cursor map with
  | nil => rfl
  | cons e edits ih =>
    rw [applyFrom, selectedFrom]
    split_ifs
    · exact ih cursor map
    · exact ih e.span.stop _

theorem replaced_foldl_push (map : OffsetMap) (edits : List Edit) :
    (edits.foldl (fun map e => map.push e.span (size e.replacement)) map).replacements.map (·.replaced) =
      map.replacements.map (·.replaced) ++ edits.map (·.span) := by
  induction edits generalizing map with
  | nil => simp
  | cons e edits ih =>
    rw [List.foldl_cons, ih]
    simp [OffsetMap.push]

theorem applyFrom_content {before rest : List Char} {cursor : Nat} (gen : Nat) (map : OffsetMap)
    (whole : text = before ++ rest) (hcursor : size before = cursor)
    (aligned : ∀ e ∈ edits, e.span.Aligned text) :
    ∃ replacements, Splice cursor gen rest (applyFrom text cursor map edits).1
      (selectedFrom (size text) cursor edits) replacements := by
  induction edits generalizing before rest cursor gen map with
  | nil =>
    refine ⟨[], ?_⟩
    subst whole
    rw [applyFrom, slice_to_end before rest hcursor.symm rfl]
    exact Splice.done _ _ _
  | cons e edits ih =>
    have later : ∀ d ∈ edits, d.span.Aligned text := fun d hd => aligned d (List.mem_cons_of_mem _ hd)
    rw [applyFrom, selectedFrom]
    split_ifs with dropped
    · exact ih gen map whole hcursor later
    · simp only [Bool.or_eq_true, decide_eq_true_eq, not_or, Nat.not_lt] at dropped
      obtain ⟨kept, out, tail, rfl, span, before_, whole', cursor'⟩ :=
        exists_cut whole hcursor (aligned e List.mem_cons_self) dropped.1 dropped.2
      have stop : e.span.stop = cursor + size kept + size out := by rw [span]
      obtain ⟨replacements, splice⟩ :=
        ih (gen + size kept + size e.replacement) (map.push e.span (size e.replacement)) whole' cursor' later
      rw [stop] at splice
      simp only [before_, List.append_assoc, stop]
      exact ⟨_, Splice.edit kept out e span splice⟩

/-- The edits that are made and those that are dropped. -/
structure Selects (text : List Char) (edits made dropped : List Edit) : Prop where
  -- Each edit is either made or dropped, as often as it is listed.
  split : (made ++ dropped).Perm edits
  -- The edits that are made are disjoint and in the order of the text.
  ascending : made.Pairwise fun a b => a.span.stop <= b.span.start
  within : ∀ e ∈ made, e.span.stop <= size text
  -- An edit that is dropped ends behind the text, or starts in an edit that is made.
  givesWay : ∀ e ∈ dropped, size text < e.span.stop ∨ ∃ m ∈ made, m.span.Holds e.span.start

theorem Selects.dropped_eq_nil {made dropped : List Edit} (selects : Selects text edits made dropped)
    (ordered : ∀ e ∈ edits, e.span.start <= e.span.stop) (within : ∀ e ∈ edits, e.span.stop <= size text)
    (distinct : (edits.map (·.span.start)).Nodup)
    (apart : edits.Pairwise fun a b => a.span.stop <= b.span.start ∨ b.span.stop <= a.span.start) :
    dropped = [] := by
  apply List.eq_nil_iff_forall_not_mem.mpr
  intro e he
  have mem : e ∈ edits := selects.split.subset (List.mem_append_right _ he)
  rcases selects.givesWay e he with behind | ⟨m, hm, holds⟩
  · have := within e mem
    omega
  · -- The edit that `e` gives way to starts elsewhere, so one of the two would have to end before the other.
    have parts := (selects.split.map (·.span.start)).nodup_iff.mpr distinct
    rw [List.map_append, List.nodup_append] at parts
    have starts := parts.2.2 _ (List.mem_map_of_mem hm) _ (List.mem_map_of_mem he)
    have ends := (selects.split.symm.pairwise apart (fun h => h.symm))
    have either := (List.pairwise_append.mp ends).2.2 m hm e he
    have := ordered e mem
    obtain ⟨low, high⟩ := holds
    omega

theorem exists_selects (ordered : ∀ e ∈ edits, e.span.start <= e.span.stop) (text : List Char) :
    ∃ dropped, Selects text edits (selectedFrom (size text) 0 (sorted edits)) dropped := by
  have perm : (sorted edits).Perm edits := List.mergeSort_perm edits _
  have ordered_ : ∀ e ∈ sorted edits, e.span.start <= e.span.stop := fun e he => ordered e (perm.subset he)
  obtain ⟨dropped, split, reasons⟩ := exists_dropped (size text) 0 (sorted_ascending edits)
  refine ⟨dropped, split.trans perm, selectedFrom_ascending ordered_, ?_, fun e he => ?_⟩
  · exact fun e he => (le_of_mem_selectedFrom ordered_ he).2
  · exact (reasons e he).imp_right fun rest => rest.resolve_left (Nat.not_lt_zero _)

/-- Edits are made in the order of the text and without overlaps. One gives way only when it ends behind the text or
starts in one that is made; none does where the edits lie apart; and edits that start at different places do the same
in every order. -/
theorem apply_selects (text : List Char) (edits : List Edit) (aligned : ∀ e ∈ edits, e.span.Aligned text) :
    (∃ made dropped replacements, Selects text edits made dropped ∧
        Splice 0 0 text (apply edits text).1 made replacements ∧
        (apply edits text).2.replacements.map (·.replaced) = made.map (·.span) ∧
        ((∀ e ∈ edits, e.span.stop <= size text) -> (edits.map (·.span.start)).Nodup ->
          edits.Pairwise (fun a b => a.span.stop <= b.span.start ∨ b.span.stop <= a.span.start) -> dropped = [])) ∧
      ((edits.map (·.span.start)).Nodup -> ∀ other : List Edit, other.Perm edits ->
        apply other text = apply edits text) := by
  have ordered : ∀ e ∈ edits, e.span.start <= e.span.stop := fun e he => (aligned e he).ordered
  have sortedAligned : ∀ e ∈ sorted edits, e.span.Aligned text := fun e he => aligned e (List.mem_mergeSort.mp he)
  obtain ⟨dropped, selects⟩ := exists_selects ordered text
  obtain ⟨replacements, splice⟩ := applyFrom_content 0 .empty (List.nil_append text).symm rfl sortedAligned
  refine ⟨⟨_, dropped, replacements, selects, splice, ?_, selects.dropped_eq_nil ordered⟩, ?_⟩
  · rw [apply, applyFrom_map, replaced_foldl_push]
    rfl
  · intro distinct other perm
    have split : (sorted edits).Perm edits := List.mergeSort_perm edits _
    have starts : ((sorted edits).map (·.span.start)).Nodup := (split.map _).nodup_iff.mpr distinct
    rw [apply, apply, sorted_eq_of_perm (perm.trans split.symm) (sorted_ascending edits) starts]

-- Edits out of order: one starts in another, one ends behind the text, and one inserts where another ends.
def crossing : List Edit :=
  [{ span := { start := 2, stop := 4 }, replacement := ['z'] }, { span := { start := 6, stop := 9 }, replacement := [] },
    { span := { start := 1, stop := 3 }, replacement := ['p', 'q'] },
    { span := { start := 3, stop := 3 }, replacement := ['x'] }]

def crossingSorted : List Edit :=
  [{ span := { start := 1, stop := 3 }, replacement := ['p', 'q'] }, { span := { start := 2, stop := 4 }, replacement := ['z'] },
    { span := { start := 3, stop := 3 }, replacement := ['x'] }, { span := { start := 6, stop := 9 }, replacement := [] }]

theorem apply_selects_crossing :
    (∀ e ∈ crossing, e.span.Aligned "abcdéf".toList) ∧
      (∃ made dropped, Selects "abcdéf".toList crossing made dropped) ∧
      crossingSorted.Perm crossing ∧ (crossing.map (·.span.start)).Nodup ∧
      apply crossingSorted "abcdéf".toList = apply crossing "abcdéf".toList := by
  have aligned : ∀ e ∈ crossing, e.span.Aligned "abcdéf".toList := by decide +kernel
  have perm : crossingSorted.Perm crossing := by decide +kernel
  have distinct : (crossing.map (·.span.start)).Nodup := by decide
  obtain ⟨⟨made, dropped, _, selects, _⟩, alike⟩ := apply_selects "abcdéf".toList crossing aligned
  exact ⟨aligned, ⟨made, dropped, selects⟩, perm, distinct, alike distinct crossingSorted perm⟩

end Edit

end StylesheetImports
