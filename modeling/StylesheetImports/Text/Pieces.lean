set_option autoImplicit false

namespace StylesheetImports

variable {A : Type}

def pieces (separates : A -> Bool) : List A -> List (List A)
  | [] => [[]]
  | a :: rest =>
    if separates a then [] :: pieces separates rest
    else (pieces separates rest).modifyHead (a :: ·)

theorem pieces_ne_nil (separates : A -> Bool) (l : List A) : pieces separates l ≠ [] := by
  induction l with
  | nil => simp [pieces]
  | cons a rest ih =>
    unfold pieces
    split
    next => simp
    next => simpa using ih

theorem not_separates_of_mem_pieces {separates : A -> Bool} {l piece : List A} {a : A}
    (hpiece : piece ∈ pieces separates l) (ha : a ∈ piece) : separates a = false := by
  induction l generalizing piece with
  | nil => simp_all [pieces]
  | cons b rest ih =>
    unfold pieces at hpiece
    split at hpiece
    next =>
      rcases List.mem_cons.mp hpiece with rfl | hpiece
      · simp at ha
      · exact ih hpiece ha
    next hb =>
      cases h : pieces separates rest with
      | nil => exact absurd h (pieces_ne_nil _ _)
      | cons first more =>
        rw [h] at hpiece ih
        rcases List.mem_cons.mp hpiece with rfl | hpiece
        · rcases List.mem_cons.mp ha with rfl | ha
          · simpa using hb
          · exact ih List.mem_cons_self ha
        · exact ih (List.mem_cons_of_mem _ hpiece) ha

theorem intercalate_pieces [DecidableEq A] (separator : A) (l : List A) :
    [separator].intercalate (pieces (· = separator) l) = l := by
  induction l with
  | nil => rfl
  | cons a rest ih =>
    cases h : pieces (· = separator) rest with
    | nil => exact absurd h (pieces_ne_nil _ _)
    | cons first more =>
      rw [h] at ih
      by_cases ha : a = separator
      · simp [pieces, ha, h, List.intercalate_cons_cons, ih]
      · cases more with
        | nil => simp_all [pieces]
        | cons second more => simp_all [pieces, List.intercalate_cons_cons]

end StylesheetImports
