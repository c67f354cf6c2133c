import StylesheetImports.Proofs.Text.Offset
import StylesheetImports.Rebase.Edit

set_option autoImplicit false

namespace StylesheetImports

open Utf8

namespace Offset

def limit : Nat := 9223372036854775808

def Fits (n : Int) : Prop :=
  -limit < n ∧ n < limit

-- The sum is a position as it stands: it neither overflows nor lies before the text.
def Exact (n : Int) : Prop :=
  0 <= n ∧ n < limit

theorem wrap_eq {n : Int} (h : Fits n) : wrap n = n := by
  unfold Fits limit at h
  unfold wrap modulus
  exact Int.bmod_eq_of_le (by omega) (by omega)

theorem shift_exact {offset : Nat} {delta : Int} (h : Exact (offset + delta)) :
    (shift offset delta : Int) = offset + delta := by
  unfold Exact limit at h
  exact shift_eq h.1 h.2

theorem shift_eq_of_add {offset target : Nat} {delta : Int} (h : (offset + delta : Int) = target)
    (small : target < limit) : shift offset delta = target := by
  have exact_ : Exact (offset + delta) := by
    unfold Exact
    omega
  have moved := shift_exact exact_
  omega

end Offset

namespace Span

def Holds (s : Span) (offset : Nat) : Prop :=
  s.start <= offset ∧ offset < s.stop

end Span

namespace OffsetMap

theorem sourceFrom_before {growth : Int} {g : Nat} {r : Replacement} {rest : List Replacement}
    (h : g < r.generated.start) : sourceFrom growth g (r :: rest) = Offset.shift g (-growth) := by
  rw [sourceFrom, if_pos h]

theorem sourceFrom_inside {growth : Int} {g : Nat} {r : Replacement} {rest : List Replacement}
    (h : r.generated.Holds g) : sourceFrom growth g (r :: rest) = r.replaced.start := by
  rw [sourceFrom, if_neg (Nat.not_lt.mpr h.1), if_pos h.2]

theorem sourceFrom_behind {growth : Int} {g : Nat} {r : Replacement} {rest : List Replacement}
    (ordered : r.generated.start <= r.generated.stop) (h : r.generated.stop <= g) :
    sourceFrom growth g (r :: rest) = sourceFrom (Offset.wrap (growth + r.growth)) g rest := by
  rw [sourceFrom, if_neg (by omega), if_neg (by omega)]

/-- The sums that a look-up of the position `g` forms are positions and lengths as they stand. -/
def ExactFrom (growth : Int) (g : Nat) : List Replacement -> Prop
  | [] => Offset.Exact (g - growth)
  | r :: rest =>
    if g < r.generated.start then Offset.Exact (g - growth)
    else if g < r.generated.stop then True
    else
      let longer : Int := r.generated.length - r.replaced.length
      Offset.Fits longer ∧ Offset.Fits (growth + longer) ∧ ExactFrom (growth + longer) g rest

end OffsetMap

/-- The text `old`, which starts at the byte `src`, becomes the text `new`, which starts at the byte `gen`,
by the edits listed and with the replacements listed. -/
inductive Splice : Nat -> Nat -> List Char -> List Char -> List Edit -> List Replacement -> Prop
  | done (src gen : Nat) (tail : List Char) : Splice src gen tail tail [] []
  | edit {src gen : Nat} {old new : List Char} {edits : List Edit} {replacements : List Replacement}
      (kept out : List Char) (e : Edit)
      (span : e.span = { start := src + size kept, stop := src + size kept + size out })
      (rest : Splice (src + size kept + size out) (gen + size kept + size e.replacement) old new edits
        replacements) :
      Splice src gen (kept ++ (out ++ old)) (kept ++ (e.replacement ++ new)) (e :: edits)
        ({ replaced := e.span
           generated := { start := gen + size kept, stop := gen + size kept + size e.replacement } }
          :: replacements)

namespace Splice

variable {src gen : Nat} {old new : List Char} {edits : List Edit} {replacements : List Replacement}

theorem bounds (h : Splice src gen old new edits replacements) {r : Replacement}
    (hr : r ∈ replacements) :
    (src <= r.replaced.start ∧ r.replaced.start <= r.replaced.stop ∧ r.replaced.stop <= src + size old) ∧
      gen <= r.generated.start ∧ r.generated.start <= r.generated.stop ∧
        r.generated.stop <= gen + size new := by
  induction h with
  | done => simp at hr
  | edit kept out e span rest ih =>
    simp only [size_append]
    rcases List.mem_cons.mp hr with rfl | hr
    · rw [span]
      simp only
      omega
    · have later := ih hr
      omega

theorem ascending (h : Splice src gen old new edits replacements) :
    replacements.Pairwise fun a b =>
      a.replaced.stop <= b.replaced.start ∧ a.generated.stop <= b.generated.start := by
  induction h with
  | done => exact List.Pairwise.nil
  | edit kept out e span rest ih =>
    refine List.Pairwise.cons (fun b hb => ?_) ih
    have later := rest.bounds hb
    rw [span]
    exact ⟨later.1.1, later.2.1⟩

theorem generated_eq (h : Splice src gen old new edits replacements) (before : List Char)
    (hbefore : size before = gen) :
    List.Forall₂ (fun (e : Edit) (r : Replacement) =>
      r.replaced = e.span ∧ slice? r.generated (before ++ new) = some e.replacement)
      edits replacements := by
  induction h generalizing before with
  | done => exact List.Forall₂.nil
  | @edit src gen old new edits replacements kept out e span rest ih =>
    refine List.Forall₂.cons ⟨rfl, ?_⟩ ?_
    · rw [← List.append_assoc before]
      exact slice?_append _ _ _ (by simp [hbefore]) (by simp [hbefore])
    · have later := ih (before ++ kept ++ e.replacement) (by simp [hbefore, Nat.add_assoc])
      simpa only [List.append_assoc] using later

theorem growth_step {src gen : Nat} {kept out : List Char} {e : Edit}
    (span : e.span = { start := src + size kept, stop := src + size kept + size out })
    (smallOld : src + size kept + size out < Offset.limit)
    (smallNew : gen + size kept + size e.replacement < Offset.limit) :
    Offset.wrap ((gen - src : Int) + Replacement.growth
      { replaced := e.span
        generated := { start := gen + size kept, stop := gen + size kept + size e.replacement } })
      = ((gen + size kept + size e.replacement : Nat) : Int) - (src + size kept + size out : Nat) := by
  have inner : Offset.Fits ((size e.replacement : Int) - size out) := by
    unfold Offset.Fits
    omega
  simp only [Replacement.growth, Span.length, span, Nat.add_sub_cancel_left]
  rw [Offset.wrap_eq inner, Offset.wrap_eq (by unfold Offset.Fits; omega)]
  omega

theorem lookup {src gen : Nat} {kept out : List Char} {e : Edit} (rest : List Replacement) {g : Nat}
    (span : e.span = { start := src + size kept, stop := src + size kept + size out })
    (smallOld : src + size kept + size out < Offset.limit)
    (smallNew : gen + size kept + size e.replacement < Offset.limit) (hg : gen <= g) :
    let r : Replacement :=
      { replaced := e.span
        generated := { start := gen + size kept, stop := gen + size kept + size e.replacement } }
    (g < gen + size kept ∧ OffsetMap.sourceFrom (gen - src) g (r :: rest) = src + (g - gen)) ∨
      ((gen + size kept <= g ∧ g < gen + size kept + size e.replacement) ∧
          OffsetMap.sourceFrom (gen - src) g (r :: rest) = src + size kept) ∨
        (gen + size kept + size e.replacement <= g ∧
          OffsetMap.sourceFrom (gen - src) g (r :: rest) =
            OffsetMap.sourceFrom
              (((gen + size kept + size e.replacement : Nat) : Int)
                - (src + size kept + size out : Nat)) g rest) := by
  intro r
  by_cases before : g < gen + size kept
  · left
    rw [OffsetMap.sourceFrom_before before]
    exact ⟨before, Offset.shift_eq_of_add (by omega) (by omega)⟩
  · right
    by_cases inside : g < gen + size kept + size e.replacement
    · left
      have holds : r.generated.Holds g := ⟨by simpa [r] using before, inside⟩
      rw [OffsetMap.sourceFrom_inside holds]
      exact ⟨⟨by omega, inside⟩, by simp [r, span]⟩
    · right
      rw [OffsetMap.sourceFrom_behind (by simp [r]) (by simpa [r] using inside)]
      exact ⟨by omega, by rw [growth_step span smallOld smallNew]⟩

theorem lookup_done {src gen g : Nat} (hg : gen <= g) (small : src + (g - gen) < Offset.limit) :
    OffsetMap.sourceFrom (gen - src) g [] = src + (g - gen) := by
  rw [OffsetMap.sourceFrom]
  exact Offset.shift_eq_of_add (by omega) small

theorem le_sourceFrom (h : Splice src gen old new edits replacements)
    (smallOld : src + size old < Offset.limit) (smallNew : gen + size new < Offset.limit) {g : Nat}
    (hg : gen <= g) (inRange : g + (src + size old) < Offset.limit + (gen + size new)) :
    src <= OffsetMap.sourceFrom (gen - src) g replacements := by
  -- Along the stretches: behind a replacement the look-up is the one of the rest, with the growth there.
  induction h with
  | done =>
    rw [lookup_done hg (by omega)]
    omega
  | @edit src gen old new edits replacements kept out e span rest ih =>
    simp only [size_append] at smallOld smallNew inRange
    rcases lookup replacements span (by omega) (by omega) hg with ⟨_, same⟩ | ⟨_, same⟩ | ⟨behind, same⟩
    · rw [same]
      omega
    · rw [same]
      omega
    · rw [same]
      have later := ih (by omega) (by omega) behind (by omega)
      omega

theorem sourceFrom_mono (h : Splice src gen old new edits replacements)
    (smallOld : src + size old < Offset.limit) (smallNew : gen + size new < Offset.limit) {a b : Nat}
    (ha : gen <= a) (hab : a <= b) (inRange : b + (src + size old) < Offset.limit + (gen + size new)) :
    OffsetMap.sourceFrom (gen - src) a replacements <=
      OffsetMap.sourceFrom (gen - src) b replacements := by
  induction h with
  | done =>
    rw [lookup_done ha (by omega), lookup_done (by omega) (by omega)]
    omega
  | @edit src gen old new edits replacements kept out e span rest ih =>
    simp only [size_append] at smallOld smallNew inRange
    -- The later position meets the first replacement where the earlier one does, or further on.
    have hb := lookup replacements span (by omega) (by omega) (Nat.le_trans ha hab)
    rcases lookup replacements span (by omega) (by omega) ha
      with ⟨before, same⟩ | ⟨inside, same⟩ | ⟨behind, same⟩
    · rw [same]
      rcases hb with ⟨_, sameb⟩ | ⟨_, sameb⟩ | ⟨behindb, sameb⟩
      · rw [sameb]
        omega
      · rw [sameb]
        omega
      · rw [sameb]
        have later := rest.le_sourceFrom (by omega) (by omega) behindb (by omega)
        omega
    · rw [same]
      rcases hb with ⟨_, _⟩ | ⟨_, sameb⟩ | ⟨behindb, sameb⟩
      · omega
      · exact Nat.le_of_eq sameb.symm
      · rw [sameb]
        have later := rest.le_sourceFrom (by omega) (by omega) behindb (by omega)
        omega
    · rcases hb with ⟨_, _⟩ | ⟨_, _⟩ | ⟨_, sameb⟩
      · omega
      · omega
      · rw [same, sameb]
        exact ih (by omega) (by omega) behind (by omega)

theorem sourceFrom_size (h : Splice src gen old new edits replacements)
    (smallOld : src + size old < Offset.limit) (smallNew : gen + size new < Offset.limit) :
    OffsetMap.sourceFrom (gen - src) (gen + size new) replacements = src + size old := by
  induction h with
  | done =>
    rw [lookup_done (by omega) (by omega)]
    omega
  | @edit src gen old new edits replacements kept out e span rest ih =>
    simp only [size_append] at smallOld smallNew ⊢
    have later := ih (by omega) (by omega)
    have small : src + size kept + size out < Offset.limit := by omega
    have smallHere : gen + size kept + size e.replacement < Offset.limit := by omega
    rcases lookup replacements span small smallHere
      (Nat.le_add_right gen (size kept + (size e.replacement + size new)))
      with ⟨_, _⟩ | ⟨_, _⟩ | ⟨_, same⟩
    · omega
    · omega
    · rw [same]
      simp only [Nat.add_assoc] at later ⊢
      exact later

theorem sourceFrom_inside (h : Splice src gen old new edits replacements)
    (smallOld : src + size old < Offset.limit) (smallNew : gen + size new < Offset.limit)
    {r : Replacement} (hr : r ∈ replacements) {g : Nat} (inside : r.generated.Holds g) :
    OffsetMap.sourceFrom (gen - src) g replacements = r.replaced.start := by
  induction h with
  | done => simp at hr
  | @edit src gen old new edits replacements kept out e span rest ih =>
    simp only [size_append] at smallOld smallNew
    rcases List.mem_cons.mp hr with rfl | hr
    · exact OffsetMap.sourceFrom_inside inside
    · have later := rest.bounds hr
      have behind : gen + size kept + size e.replacement <= g := Nat.le_trans later.2.1 inside.1
      rw [OffsetMap.sourceFrom_behind (by simp) behind, growth_step span (by omega) (by omega)]
      exact ih (by omega) (by omega) hr

theorem sourceFrom_outside (h : Splice src gen old new edits replacements)
    (smallOld : src + size old < Offset.limit) (smallNew : gen + size new < Offset.limit) {g : Nat}
    (hg : gen <= g) (below : g < gen + size new)
    (outside : ∀ r ∈ replacements, ¬ r.generated.Holds g) :
    OffsetMap.sourceFrom (gen - src) g replacements < src + size old ∧
      (∀ r ∈ replacements, ¬ r.replaced.Holds (OffsetMap.sourceFrom (gen - src) g replacements)) ∧
        (encode new)[g - gen]? =
          (encode old)[OffsetMap.sourceFrom (gen - src) g replacements - src]? := by
  induction h with
  | done =>
    rw [lookup_done hg (by omega)]
    simp
    omega
  | @edit src gen old new edits replacements kept out e span rest ih =>
    simp only [size_append] at smallOld smallNew below
    -- Before the first replacement the byte was kept as it is; behind it the rest says where it comes from.
    rcases lookup replacements span (by omega) (by omega) hg
      with ⟨before, same⟩ | ⟨inside, _⟩ | ⟨behind, same⟩
    · rw [same]
      refine ⟨by simp only [size_append]; omega, ?_, ?_⟩
      · intro r hr
        rcases List.mem_cons.mp hr with rfl | hr
        · rw [span]
          simp [Span.Holds]
          omega
        · have later := (rest.bounds hr).1.1
          simp only [Span.Holds]
          omega
      · rw [Nat.add_sub_cancel_left, getElem?_encode_left (by omega), getElem?_encode_left (by omega)]
    · exact absurd inside (outside _ List.mem_cons_self)
    · have later := ih (by omega) (by omega) behind (by omega)
        (fun r hr => outside r (List.mem_cons_of_mem _ hr))
      have low := rest.le_sourceFrom (by omega) (by omega) behind (by omega)
      rw [same]
      refine ⟨by simp only [size_append]; omega, ?_, ?_⟩
      · intro r hr
        rcases List.mem_cons.mp hr with rfl | hr
        · rw [span]
          simp only [Span.Holds]
          omega
        · exact later.2.1 r hr
      · rw [getElem?_encode_right (by omega), getElem?_encode_right (by omega),
          getElem?_encode_right (by omega), getElem?_encode_right (by omega)]
        simp only [Nat.sub_sub]
        exact later.2.2

theorem sourceFrom_strict (h : Splice src gen old new edits replacements)
    (smallOld : src + size old < Offset.limit) (smallNew : gen + size new < Offset.limit) {a b : Nat}
    (ha : gen <= a) (hab : a < b) (below : b < gen + size new)
    (outsidea : ∀ r ∈ replacements, ¬ r.generated.Holds a)
    (outsideb : ∀ r ∈ replacements, ¬ r.generated.Holds b) :
    OffsetMap.sourceFrom (gen - src) a replacements <
      OffsetMap.sourceFrom (gen - src) b replacements := by
  induction h with
  | done =>
    rw [lookup_done ha (by omega), lookup_done (by omega) (by omega)]
    omega
  | @edit src gen old new edits replacements kept out e span rest ih =>
    simp only [size_append] at smallOld smallNew below
    have hb := lookup replacements span (by omega) (by omega) (Nat.le_of_lt (Nat.lt_of_le_of_lt ha hab))
    rcases lookup replacements span (by omega) (by omega) ha
      with ⟨before, same⟩ | ⟨inside, _⟩ | ⟨behind, same⟩
    · rw [same]
      rcases hb with ⟨_, sameb⟩ | ⟨insideb, _⟩ | ⟨behindb, sameb⟩
      · rw [sameb]
        omega
      · exact absurd insideb (outsideb _ List.mem_cons_self)
      · rw [sameb]
        have later := rest.le_sourceFrom (by omega) (by omega) behindb (by omega)
        omega
    · exact absurd inside (outsidea _ List.mem_cons_self)
    · rcases hb with ⟨_, _⟩ | ⟨_, _⟩ | ⟨_, sameb⟩
      · omega
      · omega
      · rw [same, sameb]
        exact ih (by omega) (by omega) behind (by omega)
          (fun r hr => outsidea r (List.mem_cons_of_mem _ hr))
          (fun r hr => outsideb r (List.mem_cons_of_mem _ hr))

theorem exists_sourceFrom_eq (h : Splice src gen old new edits replacements)
    (smallOld : src + size old < Offset.limit) (smallNew : gen + size new < Offset.limit) {p : Nat}
    (hp : src <= p) (below : p < src + size old)
    (outside : ∀ r ∈ replacements, ¬ r.replaced.Holds p) :
    ∃ g, (gen <= g ∧ g < gen + size new) ∧ (∀ r ∈ replacements, ¬ r.generated.Holds g) ∧
      OffsetMap.sourceFrom (gen - src) g replacements = p := by
  induction h with
  | done src gen =>
    refine ⟨gen + (p - src), by omega, by simp, ?_⟩
    rw [lookup_done (by omega) (by omega)]
    omega
  | @edit src gen old new edits replacements kept out e span rest ih =>
    simp only [size_append] at smallOld smallNew below
    by_cases before : p < src + size kept
    · refine ⟨gen + (p - src), by simp only [size_append]; omega, ?_, ?_⟩
      · intro r hr
        rcases List.mem_cons.mp hr with rfl | hr
        · simp only [Span.Holds]
          omega
        · have later := (rest.bounds hr).2.1
          simp only [Span.Holds]
          omega
      · rw [OffsetMap.sourceFrom_before (by simp only; omega)]
        exact Offset.shift_eq_of_add (by omega) (by omega)
    · -- The edit takes out nothing of `p`, so `p` lies behind it.
      have first : ¬ e.span.Holds p := outside _ List.mem_cons_self
      simp only [span, Span.Holds] at first
      obtain ⟨g, range, untouched, same⟩ := ih (by omega) (by omega) (by omega) (by omega)
        (fun r hr => outside r (List.mem_cons_of_mem _ hr))
      refine ⟨g, by simp only [size_append]; omega, ?_, ?_⟩
      · intro r hr
        rcases List.mem_cons.mp hr with rfl | hr
        · simp only [Span.Holds]
          omega
        · exact untouched r hr
      · rw [OffsetMap.sourceFrom_behind (by simp) range.1, growth_step span (by omega) (by omega)]
        exact same

theorem exactFrom (h : Splice src gen old new edits replacements)
    (smallOld : src + size old < Offset.limit) (smallNew : gen + size new < Offset.limit) {g : Nat}
    (hg : gen <= g) (inRange : g + (src + size old) < Offset.limit + (gen + size new)) :
    OffsetMap.ExactFrom (gen - src) g replacements := by
  induction h with
  | done =>
    simp only [OffsetMap.ExactFrom, Offset.Exact]
    omega
  | @edit src gen old new edits replacements kept out e span rest ih =>
    simp only [size_append] at smallOld smallNew inRange
    simp only [OffsetMap.ExactFrom, Span.length, span, Nat.add_sub_cancel_left]
    split_ifs with before inside
    · simp only [Offset.Exact]
      omega
    · have later := ih (by omega) (by omega) (by omega) (by omega)
      have moved : (gen - src : Int) + (size e.replacement - size out) =
          ((gen + size kept + size e.replacement : Nat) : Int) - (src + size kept + size out : Nat) := by
        omega
      rw [moved]
      exact ⟨by simp only [Offset.Fits]; omega, by simp only [Offset.Fits]; omega, later⟩

end Splice

end StylesheetImports
