import StylesheetImports.Proofs.Text.Utf8

set_option autoImplicit false

namespace StylesheetImports

namespace Utf8

def IsBoundary (text : List Char) (offset : Nat) : Prop :=
  ∃ before after, text = before ++ after ∧ size before = offset

theorem eq_nil_of_size_eq_zero {text : List Char} (h : size text = 0) : text = [] := by
  cases text with
  | nil => rfl
  | cons c text =>
    have := c.utf8Size_pos
    rw [size_cons] at h
    omega

theorem split_of_size_le {a b c d : List Char} (same : a ++ b = c ++ d) (le : size a <= size c) :
    ∃ k, c = a ++ k ∧ b = k ++ d := by
  rcases List.append_eq_append_iff.mp same with ⟨k, hc, hb⟩ | ⟨k, ha, hd⟩
  · exact ⟨k, hc, hb⟩
  · have none : k = [] := by
      apply eq_nil_of_size_eq_zero
      rw [ha, size_append] at le
      omega
    subst none
    exact ⟨[], by simpa using ha.symm, by simpa using hd.symm⟩

theorem IsBoundary.cut {before after : List Char} {offset : Nat}
    (boundary : IsBoundary (before ++ after) offset) (behind : size before <= offset) :
    ∃ kept rest, after = kept ++ rest ∧ offset = size before + size kept := by
  obtain ⟨a, b, same, rfl⟩ := boundary
  obtain ⟨k, rfl, rfl⟩ := split_of_size_le same behind
  exact ⟨k, b, rfl, size_append _ _⟩

theorem sliceFrom_before (span : Span) (before text : List Char) (at_ : Nat)
    (h : at_ + size before <= span.start) :
    sliceFrom span at_ (before ++ text) = sliceFrom span (at_ + size before) text := by
  induction before generalizing at_ with
  | nil => rfl
  | cons c before ih =>
    have := c.utf8Size_pos
    rw [size_cons] at h
    rw [List.cons_append, sliceFrom, if_neg (by simp; omega), ih _ (by omega), size_cons, Nat.add_assoc]

theorem sliceFrom_inside (span : Span) (middle text : List Char) (at_ : Nat)
    (start : span.start <= at_) (stop : at_ + size middle <= span.stop) :
    sliceFrom span at_ (middle ++ text) = middle ++ sliceFrom span (at_ + size middle) text := by
  induction middle generalizing at_ with
  | nil => rfl
  | cons c middle ih =>
    have := c.utf8Size_pos
    rw [size_cons] at stop
    rw [List.cons_append, sliceFrom, if_pos (by simp; omega), ih _ (by omega) (by omega), size_cons,
      Nat.add_assoc, List.cons_append]

theorem sliceFrom_behind (span : Span) (text : List Char) (at_ : Nat) (h : span.stop <= at_) :
    sliceFrom span at_ text = [] := by
  induction text generalizing at_ with
  | nil => rfl
  | cons c text ih =>
    rw [sliceFrom, if_neg (by simp; omega)]
    exact ih _ (by omega)

theorem slice_append (before middle after : List Char) {start stop : Nat}
    (hstart : start = size before) (hstop : stop = size before + size middle) :
    slice { start, stop } (before ++ (middle ++ after)) = middle := by
  subst hstart hstop
  rw [slice, sliceFrom_before _ _ _ _ (by simp), sliceFrom_inside _ _ _ _ (by simp) (by simp),
    sliceFrom_behind _ _ _ (by simp), List.append_nil]

theorem slice_to_end (before after : List Char) {start stop : Nat} (hstart : start = size before)
    (hstop : stop = size (before ++ after)) : slice { start, stop } (before ++ after) = after := by
  rw [size_append] at hstop
  have h := slice_append before after [] hstart hstop
  rwa [List.append_nil] at h

theorem splitAt?_append (before after : List Char) :
    splitAt? (size before) (before ++ after) = some (before, after) := by
  induction before with
  | nil => cases after <;> simp [splitAt?]
  | cons c before ih =>
    have := c.utf8Size_pos
    rw [List.cons_append, splitAt?, if_neg (by simp; omega), if_neg (by simp), size_cons,
      Nat.add_sub_cancel_left, ih]
    rfl

theorem eq_of_splitAt? {offset : Nat} {text before after : List Char}
    (h : splitAt? offset text = some (before, after)) : text = before ++ after ∧ size before = offset := by
  induction text generalizing offset before after with
  | nil =>
    unfold splitAt? at h
    split_ifs at h with none
    simp only [Option.some.injEq, Prod.mk.injEq] at h
    obtain ⟨rfl, rfl⟩ := h
    exact ⟨rfl, none.symm⟩
  | cons c text ih =>
    unfold splitAt? at h
    split_ifs at h with none inside
    · simp only [Option.some.injEq, Prod.mk.injEq] at h
      obtain ⟨rfl, rfl⟩ := h
      exact ⟨rfl, none.symm⟩
    · obtain ⟨⟨b, a⟩, found, same⟩ := Option.map_eq_some_iff.mp h
      simp only [Prod.mk.injEq] at same
      obtain ⟨rfl, rfl⟩ := same
      obtain ⟨rfl, length⟩ := ih found
      exact ⟨rfl, by rw [size_cons]; omega⟩

theorem isBoundary_iff {text : List Char} {offset : Nat} :
    IsBoundary text offset ↔ (splitAt? offset text).isSome := by
  constructor
  · rintro ⟨before, after, rfl, rfl⟩
    rw [splitAt?_append]
    rfl
  · intro h
    obtain ⟨⟨before, after⟩, found⟩ := Option.isSome_iff_exists.mp h
    exact ⟨before, after, eq_of_splitAt? found⟩

instance (text : List Char) (offset : Nat) : Decidable (IsBoundary text offset) :=
  decidable_of_iff _ isBoundary_iff.symm

theorem slice?_append (before middle after : List Char) {start stop : Nat}
    (hstart : start = size before) (hstop : stop = size before + size middle) :
    slice? { start, stop } (before ++ (middle ++ after)) = some middle := by
  subst hstart hstop
  rw [slice?, if_pos (by simp), splitAt?_append, Option.bind_some]
  simp only [Nat.add_sub_cancel_left]
  rw [splitAt?_append]
  rfl

end Utf8

namespace Span

/-- The span does not end before it starts, and no end of it falls inside a character of the text. -/
structure Aligned (text : List Char) (s : Span) : Prop where
  ordered : s.start <= s.stop
  start : s.start <= Utf8.size text -> Utf8.IsBoundary text s.start
  stop : s.stop <= Utf8.size text -> Utf8.IsBoundary text s.stop

instance (text : List Char) (s : Span) : Decidable (s.Aligned text) :=
  decidable_of_iff
    (s.start <= s.stop ∧ (s.start <= Utf8.size text -> Utf8.IsBoundary text s.start) ∧
      (s.stop <= Utf8.size text -> Utf8.IsBoundary text s.stop))
    ⟨fun h => ⟨h.1, h.2.1, h.2.2⟩, fun h => ⟨h.ordered, h.start, h.stop⟩⟩

theorem Aligned.cut {before after : List Char} {s : Span} (h : s.Aligned (before ++ after))
    (behind : Utf8.size before <= s.start) (within : s.stop <= Utf8.size (before ++ after)) :
    ∃ kept out rest, after = kept ++ (out ++ rest) ∧
      s = { start := Utf8.size before + Utf8.size kept
            stop := Utf8.size before + Utf8.size kept + Utf8.size out } := by
  have ordered := h.ordered
  obtain ⟨kept, rest, rfl, start⟩ := (h.start (Nat.le_trans ordered within)).cut behind
  have stop := h.stop within
  rw [← List.append_assoc] at stop
  obtain ⟨out, rest, rfl, end_⟩ := stop.cut (by rw [Utf8.size_append]; omega)
  rw [Utf8.size_append] at end_
  refine ⟨kept, out, rest, rfl, ?_⟩
  cases s
  simp_all

end Span

end StylesheetImports
