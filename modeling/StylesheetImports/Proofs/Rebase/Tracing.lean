import Mathlib.Data.List.Nodup
import StylesheetImports.Proofs.Rebase.Splice
import StylesheetImports.Rebase.Rebaser

set_option autoImplicit false

namespace StylesheetImports

open Utf8

namespace OffsetMap

theorem growth_push {map : OffsetMap} {replaced : Span} {n cursor gen kept out : Nat}
    (growth : map.growth = (gen : Int) - cursor)
    (span : replaced = { start := cursor + kept, stop := cursor + kept + out })
    (smallOld : cursor + kept + out < Offset.limit) (smallNew : gen + kept + n < Offset.limit) :
    (map.push replaced n).growth = ((gen + kept + n : Nat) : Int) - (cursor + kept + out : Nat) := by
  simp only [push, Span.length, span, growth, Nat.add_sub_cancel_left]
  rw [Offset.wrap_eq (by unfold Offset.Fits; omega)]
  omega

theorem replacements_push {map : OffsetMap} {replaced : Span} {n cursor gen kept out : Nat}
    (growth : map.growth = (gen : Int) - cursor)
    (span : replaced = { start := cursor + kept, stop := cursor + kept + out })
    (smallNew : gen + kept + n < Offset.limit) :
    (map.push replaced n).replacements =
      map.replacements ++ [{ replaced, generated := { start := gen + kept, stop := gen + kept + n } }] := by
  have start : Offset.shift (cursor + kept) map.growth = gen + kept :=
    Offset.shift_eq_of_add (by omega) (by omega)
  have stop : (gen + kept + n) % Offset.modulus = gen + kept + n := by
    apply Nat.mod_eq_of_lt
    unfold Offset.limit at smallNew
    unfold Offset.modulus
    omega
  simp only [push, span, start, stop]

end OffsetMap

namespace Edit

def selectedFrom (length : Nat) : Nat -> List Edit -> List Edit
  | _, [] => []
  | cursor, e :: edits =>
    if e.span.start < cursor || length < e.span.stop then selectedFrom length cursor edits
    else e :: selectedFrom length e.span.stop edits

-- The sums formed while edits are made are positions and lengths as they stand.
def ExactFrom (length : Nat) : Nat -> Int -> List Edit -> Prop
  | _, _, [] => True
  | cursor, growth, e :: edits =>
    if e.span.start < cursor || length < e.span.stop then ExactFrom length cursor growth edits
    else
      let longer : Int := size e.replacement - e.span.length
      Offset.Exact (e.span.start + growth) ∧ Offset.Fits longer ∧ Offset.Fits (growth + longer) ∧
        ExactFrom length e.span.stop (growth + longer) edits

theorem exists_dropped (length cursor : Nat) {edits : List Edit}
    (ascending : edits.Pairwise fun a b => a.span.start <= b.span.start) :
    ∃ dropped, (selectedFrom length cursor edits ++ dropped).Perm edits ∧
      ∀ e ∈ dropped, length < e.span.stop ∨ e.span.start < cursor ∨
        ∃ made ∈ selectedFrom length cursor edits, made.span.Holds e.span.start := by
  induction edits generalizing cursor with
  | nil => exact ⟨[], List.Perm.refl [], by simp⟩
  | cons first edits ih =>
    obtain ⟨lowest, ascending⟩ := List.pairwise_cons.mp ascending
    rw [selectedFrom]
    split_ifs with drops
    · obtain ⟨dropped, split, reasons⟩ := ih cursor ascending
      rw [Bool.or_eq_true, decide_eq_true_eq, decide_eq_true_eq] at drops
      refine ⟨first :: dropped, List.perm_middle.trans (split.cons first), ?_⟩
      exact List.forall_mem_cons.mpr ⟨drops.symm.imp_right .inl, reasons⟩
    · obtain ⟨dropped, split, reasons⟩ := ih first.span.stop ascending
      refine ⟨dropped, split.cons first, fun e he => ?_⟩
      have mem : e ∈ edits := split.subset (List.mem_append_right _ he)
      -- What starts before the end of `first` does not start before `first`, so it starts in it.
      rcases reasons e he with behind | before | ⟨made, hmade, holds⟩
      · exact .inl behind
      · exact .inr (.inr ⟨first, List.mem_cons_self, lowest e mem, before⟩)
      · exact .inr (.inr ⟨made, List.mem_cons_of_mem _ hmade, holds⟩)

theorem mem_selectedFrom {length cursor : Nat} {edits : List Edit}
    (ascending : edits.Pairwise fun a b => a.span.start <= b.span.start) {e : Edit} (he : e ∈ edits) :
    e ∈ selectedFrom length cursor edits ∨ length < e.span.stop ∨ e.span.start < cursor ∨
      ∃ made ∈ selectedFrom length cursor edits, made.span.Holds e.span.start := by
  obtain ⟨dropped, split, reasons⟩ := exists_dropped length cursor ascending
  exact (List.mem_append.mp (split.symm.subset he)).imp_right (reasons e)

theorem sorted_ascending (edits : List Edit) :
    (sorted edits).Pairwise fun a b => a.span.start <= b.span.start := by
  have h : (edits.mergeSort fun a b => decide (a.span.start <= b.span.start)).Pairwise fun a b =>
      decide (a.span.start <= b.span.start) = true := by
    apply List.pairwise_mergeSort
    · intro a b c hab hbc
      rw [decide_eq_true_eq] at hab hbc ⊢
      exact Nat.le_trans hab hbc
    · intro a b
      rw [Bool.or_eq_true, decide_eq_true_eq, decide_eq_true_eq]
      exact Nat.le_total _ _
  simpa [sorted] using h

theorem sorted_eq_of_perm {edits ascending : List Edit} (perm : edits.Perm ascending)
    (order : ascending.Pairwise fun a b => a.span.start <= b.span.start)
    (distinct : (ascending.map (·.span.start)).Nodup) : sorted edits = ascending := by
  have whole : (sorted edits).Perm ascending := (List.mergeSort_perm edits _).trans perm
  refine whole.eq_of_pairwise ?_ (sorted_ascending edits) order
  intro a b ha hb hab hba
  exact List.inj_on_of_nodup_map distinct (whole.mem_iff.mp ha) hb (Nat.le_antisymm hab hba)

theorem exists_cut {text before rest : List Char} {cursor : Nat} {span : Span} (whole : text = before ++ rest)
    (hcursor : size before = cursor) (aligned : span.Aligned text) (behind : cursor <= span.start)
    (within : span.stop <= size text) :
    ∃ kept out tail, rest = kept ++ (out ++ tail) ∧
      span = { start := cursor + size kept, stop := cursor + size kept + size out } ∧
      slice { start := cursor, stop := span.start } text = kept ∧
      text = (before ++ (kept ++ out)) ++ tail ∧ size (before ++ (kept ++ out)) = span.stop := by
  subst whole hcursor
  obtain ⟨kept, out, tail, rfl, same⟩ := aligned.cut behind within
  refine ⟨kept, out, tail, rfl, same, ?_, by simp, by simp [same, Nat.add_assoc]⟩
  rw [same]
  exact slice_append _ _ _ rfl rfl

theorem applyFrom_splice {text before rest : List Char} {cursor gen : Nat} {map : OffsetMap}
    {edits : List Edit} (whole : text = before ++ rest) (hcursor : size before = cursor)
    (growth : map.growth = (gen : Int) - cursor) (aligned : ∀ e ∈ edits, e.span.Aligned text)
    (smallOld : size text < Offset.limit)
    (smallNew : gen + size (applyFrom text cursor map edits).1 < Offset.limit) :
    ∃ replacements,
      Splice cursor gen rest (applyFrom text cursor map edits).1
        (selectedFrom (size text) cursor edits) replacements ∧
      (applyFrom text cursor map edits).2.replacements = map.replacements ++ replacements ∧
      ExactFrom (size text) cursor map.growth edits := by
  induction edits generalizing before rest cursor gen map with
  | nil =>
    refine ⟨[], ?_, by simp [applyFrom], trivial⟩
    subst whole
    rw [applyFrom, slice_to_end before rest hcursor.symm rfl]
    exact Splice.done _ _ _
  | cons e edits ih =>
    have later : ∀ d ∈ edits, d.span.Aligned text := fun d hd => aligned d (List.mem_cons_of_mem _ hd)
    by_cases dropped : (e.span.start < cursor || size text < e.span.stop) = true
    · -- An edit that is left out changes neither the cursor nor the map.
      rw [applyFrom, selectedFrom, ExactFrom, if_pos dropped, if_pos dropped, if_pos dropped]
      rw [applyFrom, if_pos dropped] at smallNew
      exact ih whole hcursor growth later smallNew
    · rw [applyFrom, selectedFrom, ExactFrom, if_neg dropped, if_neg dropped, if_neg dropped]
      rw [applyFrom, if_neg dropped] at smallNew
      simp only [Bool.or_eq_true, decide_eq_true_eq, not_or, Nat.not_lt] at dropped
      obtain ⟨kept, out, tail, rfl, span, before_, whole', cursor'⟩ :=
        exists_cut whole hcursor (aligned e List.mem_cons_self) dropped.1 dropped.2
      have stop : e.span.stop = cursor + size kept + size out := by rw [span]
      have smallSpan : cursor + size kept + size out < Offset.limit :=
        stop ▸ Nat.lt_of_le_of_lt dropped.2 smallOld
      simp only [before_, size_append] at smallNew ⊢
      have smallHere : gen + size kept + size e.replacement < Offset.limit := by omega
      -- The growth of the map stays how far the two texts are apart at the cursor.
      have growth' := OffsetMap.growth_push growth span smallSpan smallHere
      rw [← stop] at growth'
      obtain ⟨replacements, splice, listed, sums⟩ := ih whole' cursor' growth' later (by omega)
      let made : Replacement :=
        { replaced := e.span
          generated := { start := gen + size kept, stop := gen + size kept + size e.replacement } }
      refine ⟨made :: replacements, ?_, ?_, ?_⟩
      · rw [List.append_assoc]
        exact Splice.edit kept out e span (stop ▸ splice)
      · rw [listed, OffsetMap.replacements_push growth span smallHere, List.append_assoc,
          List.singleton_append]
      · have length : e.span.length = size out := by simp [Span.length, span]
        have start : e.span.start = cursor + size kept := by rw [span]
        have moved : map.growth + ((size e.replacement : Int) - size out) =
            (map.push e.span (size e.replacement)).growth := by
          rw [growth', growth, stop]
          omega
        simp only [length, moved, start]
        refine ⟨?_, ?_, ?_, sums⟩
        · rw [growth]
          unfold Offset.Exact
          omega
        · unfold Offset.Fits
          omega
        · rw [growth', stop]
          unfold Offset.Fits
          omega

end Edit

namespace Scan

/-- No reported span ends before it starts or has an end inside a character of the text. -/
def Aligned (text : List Char) (scan : Scan) : Prop :=
  (∀ arg ∈ scan.arguments, arg.span.Aligned text) ∧ ∀ spec ∈ scan.specifiers, spec.span.Aligned text

instance (text : List Char) (scan : Scan) : Decidable (scan.Aligned text) :=
  inferInstanceAs (Decidable (_ ∧ _))

end Scan

namespace OffsetMap

/-- The map traces the text `content` back to `text`, from which it was made by `edits`. -/
structure Traces (map : OffsetMap) (text content : List Char) (edits : List Edit) : Prop where
  -- Replacements are ascending and disjoint in both texts.
  ascending : map.replacements.Pairwise fun a b =>
    a.replaced.stop <= b.replaced.start ∧ a.generated.stop <= b.generated.start
  within : ∀ r ∈ map.replacements,
    (r.replaced.start <= r.replaced.stop ∧ r.replaced.stop <= size text) ∧
      r.generated.start <= r.generated.stop ∧ r.generated.stop <= size content
  -- Each replacement replaces the span of its edit, and the text of the edit stands in its place.
  generated : List.Forall₂ (fun (e : Edit) (r : Replacement) =>
    r.replaced = e.span ∧ slice? r.generated content = some e.replacement) edits map.replacements
  -- Each byte of the content outside all replacements is a byte of the text outside all of them.
  kept : ∀ g < size content, (∀ r ∈ map.replacements, ¬ r.generated.Holds g) ->
    map.sourceOffset g < size text ∧ (∀ r ∈ map.replacements, ¬ r.replaced.Holds (map.sourceOffset g)) ∧
      (encode content)[g]? = (encode text)[map.sourceOffset g]?
  -- Each byte of the text outside all replacements is found in the content.
  found : ∀ p < size text, (∀ r ∈ map.replacements, ¬ r.replaced.Holds p) ->
    ∃ g < size content, (∀ r ∈ map.replacements, ¬ r.generated.Holds g) ∧ map.sourceOffset g = p
  -- Kept bytes stand in the order of the text, so none of them is found twice.
  ordered : ∀ a b, a < b -> b < size content ->
    (∀ r ∈ map.replacements, ¬ r.generated.Holds a) -> (∀ r ∈ map.replacements, ¬ r.generated.Holds b) ->
      map.sourceOffset a < map.sourceOffset b
  -- A position in a replacement goes back to the start of what is replaced.
  inside : ∀ r ∈ map.replacements, ∀ g, r.generated.Holds g -> map.sourceOffset g = r.replaced.start
  -- The look-up is monotone as far as its sums are words, which is behind the end of the content.
  monotone : ∀ a b, a <= b -> b + size text < Offset.limit + size content ->
    map.sourceOffset a <= map.sourceOffset b
  atEnd : map.sourceOffset (size content) = size text
  -- No sum of a look-up overflows or is clamped.
  sums : ∀ g, g + size text < Offset.limit + size content -> ExactFrom 0 g map.replacements

end OffsetMap

theorem Splice.traces {text content : List Char} {edits : List Edit} {map : OffsetMap}
    (h : Splice 0 0 text content edits map.replacements) (smallOld : size text < Offset.limit)
    (smallNew : size content < Offset.limit) : map.Traces text content edits where
  ascending := h.ascending
  within := fun r hr => by
    have bounds := h.bounds hr
    omega
  generated := h.generated_eq [] rfl
  kept := fun g below outside => by
    have kept := h.sourceFrom_outside (by omega) (by omega) (Nat.zero_le g) (by omega) outside
    simpa [OffsetMap.sourceOffset] using kept
  found := fun p below outside => by
    have found := h.exists_sourceFrom_eq (by omega) (by omega) (Nat.zero_le p) (by omega) outside
    simpa [OffsetMap.sourceOffset, and_assoc] using found
  ordered := fun a b hab below outsidea outsideb => by
    have strict := h.sourceFrom_strict (by omega) (by omega) (Nat.zero_le a) hab (by omega) outsidea outsideb
    simpa [OffsetMap.sourceOffset] using strict
  inside := fun r hr g holds => by
    have inside := h.sourceFrom_inside (by omega) (by omega) hr holds
    simpa [OffsetMap.sourceOffset] using inside
  monotone := fun a b hab inRange => by
    have mono := h.sourceFrom_mono (by omega) (by omega) (Nat.zero_le a) hab (by omega)
    simpa [OffsetMap.sourceOffset] using mono
  atEnd := by
    have last := h.sourceFrom_size (by omega) (by omega)
    simpa [OffsetMap.sourceOffset] using last
  sums := fun g inRange => by
    have sums := h.exactFrom (by omega) (by omega) (Nat.zero_le g) (by omega)
    simpa using sums

namespace Rebaser

def madeEdits (r : Rebaser) (text : List Char) (fileDir : Path) (scan : Scan) : List Edit :=
  Edit.selectedFrom (size text) 0 (Edit.sorted (r.edits text fileDir scan))

theorem aligned_of_mem_edits {r : Rebaser} {text : List Char} {fileDir : Path} {scan : Scan}
    (aligned : scan.Aligned text) {e : Edit} (he : e ∈ r.edits text fileDir scan) :
    e.span.Aligned text := by
  rw [edits, List.mem_append, List.mem_filterMap, List.mem_filterMap] at he
  rcases he with ⟨arg, harg, he⟩ | ⟨spec, hspec, he⟩
  · have span : e.span = arg.span := by
      simp only [argumentEdit?] at he
      split at he
      next => simp at he
      next =>
        obtain ⟨new, _, he⟩ := Option.bind_eq_some_iff.mp he
        split at he
        next => simp at he
        next => rw [← Option.some.inj he]
    exact span ▸ aligned.1 arg harg
  · have span : e.span = spec.span := by
      simp only [specifierEdit?] at he
      split at he
      next => rw [← Option.some.inj he]
      next => simp at he
    exact span ▸ aligned.2 spec hspec

/-- Whatever spans a scan reports, and in whatever order, the offset map of the rebased stylesheet traces
it back. An edit is left out only when it ends behind the text or starts in one that is made, and no sum of
positions overflows or is clamped while the map is built. -/
theorem rebaseScan_traces (r : Rebaser) (text : String) (fileDir : Path) (scan : Scan)
    (aligned : scan.Aligned text.toList) (smallOld : size text.toList < Offset.limit)
    (smallNew : size (r.rebaseScan text fileDir scan).1.toList < Offset.limit) :
    (r.rebaseScan text fileDir scan).2.Traces text.toList (r.rebaseScan text fileDir scan).1.toList
        (r.madeEdits text.toList fileDir scan) ∧
      (∀ e ∈ r.edits text.toList fileDir scan, e ∈ r.madeEdits text.toList fileDir scan ∨
        size text.toList < e.span.stop ∨
          ∃ made ∈ r.madeEdits text.toList fileDir scan, made.span.Holds e.span.start) ∧
      Edit.ExactFrom (size text.toList) 0 0 (Edit.sorted (r.edits text.toList fileDir scan)) := by
  have sortedAligned : ∀ e ∈ Edit.sorted (r.edits text.toList fileDir scan), e.span.Aligned text.toList := by
    intro e he
    exact aligned_of_mem_edits aligned (List.mem_mergeSort.mp he)
  have small : 0 + size (Edit.applyFrom text.toList 0 .empty
      (Edit.sorted (r.edits text.toList fileDir scan))).1 < Offset.limit := by
    simpa [rebaseScan, Edit.apply] using smallNew
  have growth : OffsetMap.empty.growth = ((0 : Nat) : Int) - (0 : Nat) := rfl
  obtain ⟨replacements, splice, listed, sums⟩ :=
    Edit.applyFrom_splice (List.nil_append _).symm rfl growth sortedAligned smallOld small
  have listed : (r.rebaseScan text fileDir scan).2.replacements = replacements := by
    simpa [rebaseScan, Edit.apply, OffsetMap.empty] using listed
  refine ⟨Splice.traces ?_ smallOld smallNew, ?_, sums⟩
  · rw [listed]
    simpa [rebaseScan, Edit.apply, madeEdits] using splice
  · intro e he
    rcases Edit.mem_selectedFrom (Edit.sorted_ascending _) (List.mem_mergeSort.mpr he)
      with made | behind | before | inside
    · exact .inl made
    · exact .inr (.inl behind)
    · exact absurd before (Nat.not_lt_zero _)
    · exact .inr (.inr inside)

-- Spans out of order, of which two overlap and one ends behind the text.
def disorder : Scan :=
  { arguments :=
      [{ span := { start := 4, stop := 6 }, value := "p" }, { span := { start := 1, stop := 3 }, value := "q" },
        { span := { start := 2, stop := 4 }, value := "z" }, { span := { start := 6, stop := 9 }, value := "w" }]
    specifiers := [{ span := { start := 0, stop := 0 }, value := "~k", fromImport := true }] }

-- The edits for the spans, in the order of their starts.
def disorderSorted : List Edit :=
  [{ span := { start := 0, stop := 0 }
     replacement := ({ origin := "/e/s", specifier := "~k" } : PackedSpecifier).quoted.toList },
    { span := { start := 1, stop := 3 }, replacement := ['s', '/', 'q'] },
    { span := { start := 2, stop := 4 }, replacement := ['s', '/', 'z'] },
    { span := { start := 4, stop := 6 }, replacement := ['s', '/', 'p'] },
    { span := { start := 6, stop := 9 }, replacement := ['s', '/', 'w'] }]

theorem sorted_disorder :
    Edit.sorted ((anchored "/e" defaultMarks false).edits "abcdéf".toList "/e/s" disorder) = disorderSorted := by
  exact Edit.sorted_eq_of_perm (by decide +kernel) (by decide +kernel) (by decide +kernel)

theorem rebaseScan_traces_disorder :
    disorder.Aligned "abcdéf".toList ∧
      ((anchored "/e" defaultMarks false).rebaseScan "abcdéf" "/e/s" disorder).2.Traces "abcdéf".toList
        ((anchored "/e" defaultMarks false).rebaseScan "abcdéf" "/e/s" disorder).1.toList
        ((anchored "/e" defaultMarks false).madeEdits "abcdéf".toList "/e/s" disorder) := by
  have aligned : disorder.Aligned "abcdéf".toList := by decide +kernel
  have small : size ((anchored "/e" defaultMarks false).rebaseScan "abcdéf" "/e/s" disorder).1.toList <
      Offset.limit := by
    rw [rebaseScan, Edit.apply, sorted_disorder]
    decide +kernel
  exact ⟨aligned, (rebaseScan_traces (anchored "/e" defaultMarks false) "abcdéf" "/e/s" disorder aligned
    (by decide +kernel) small).1⟩

end Rebaser

end StylesheetImports
