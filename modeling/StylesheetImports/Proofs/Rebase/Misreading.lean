import StylesheetImports.Proofs.Rebase.Route

set_option autoImplicit false

namespace StylesheetImports

open Utf8 Lexeme

namespace Reference

variable {first : List Char} {more : List (List Char)}

theorem interpolates_append_slash (a b : List Char) :
    interpolates (a ++ '/' :: b) = (interpolates a || interpolates b) := by
  rw [interpolates_append (by simp), interpolates.eq_3 _ _ (by simp)]

theorem interpolates_intercalate (parts : List (List Char)) :
    interpolates (['/'].intercalate parts) = true ↔ ∃ part ∈ parts, interpolates part = true := by
  induction parts with
  | nil => simp [interpolates]
  | cons first more ih =>
    cases more with
    | nil => simp
    | cons second more =>
      rw [List.intercalate_cons_cons, List.append_assoc, List.singleton_append, interpolates_append_slash,
        Bool.or_eq_true, ih]
      simp

theorem hasScheme_append_slash (some : first ≠ []) (rest : List Char) :
    hasScheme (first ++ '/' :: rest) = hasScheme first := by
  obtain ⟨c, first, rfl⟩ := List.exists_cons_of_ne_nil some
  have stop : isSchemeChar '/' = false := by decide
  rw [List.cons_append, hasScheme, hasScheme, List.dropWhile_append]
  split
  next empty =>
    rw [List.isEmpty_iff.mp empty, List.dropWhile_cons, stop]
    simp
  next rest_ =>
    cases left : first.dropWhile isSchemeChar with
    | nil => simp [left] at rest_
    | cons d left => rfl

/-- Whether a name has a sign in it for which an argument is left alone wherever it stands. -/
def Signed (name : List Char) : Prop :=
  '$' ∈ name ∨ interpolates name = true

/-- Whether an argument is left alone that begins with a name. -/
def Fronted (name : List Char) : Prop :=
  name.head? = some '#' ∨ name.head? = some '\\' ∨ hasScheme name = true

theorem isSkipped_intercalate (some : first ≠ []) (free : '/' ∉ first) :
    isSkipped (['/'].intercalate (first :: more)) = true ↔ (∃ name ∈ first :: more, Signed name) ∨ Fronted first := by
  have front : (['/'].intercalate (first :: more)).head? = first.head? ∧
      hasScheme (['/'].intercalate (first :: more)) = hasScheme first := by
    rcases exists_intercalate '/' first more with alone | ⟨rest, along⟩
    · rw [alone]
      exact ⟨rfl, rfl⟩
    · rw [along, hasScheme_append_slash some, List.head?_append_of_ne_nil _ some]
      exact ⟨rfl, rfl⟩
  have notEmpty : ['/'].intercalate (first :: more) ≠ [] := intercalate_ne_nil some
  have noRoot : first.head? ≠ .some '/' := fun root => free (List.mem_of_mem_head? root)
  have dollar := mem_intercalate (show '$' ≠ '/' by decide) (first :: more)
  have opens := interpolates_intercalate (first :: more)
  have both : (∃ name ∈ first :: more, Signed name) ↔
      (∃ name ∈ first :: more, '$' ∈ name) ∨ ∃ name ∈ first :: more, interpolates name = true := by
    simp only [Signed, and_or_left, exists_or]
  rw [both, Fronted]
  simp only [isSkipped, Bool.or_eq_true, decide_eq_true_eq, List.contains_iff_mem, front.1, front.2, notEmpty, noRoot,
    dollar, opens, or_false, false_or]
  apply iff_of_eq
  ac_rfl

theorem isSkipped_climb {up : Nat} {names : List (List Char)} (ordinary : ∀ n ∈ names, IsOrdinary n ∧ '/' ∉ n) :
    isSkipped (unescape (written (['/'].intercalate (List.replicate up ['.', '.'] ++ names)))) = true ↔
      (∃ name ∈ names, Signed name) ∨ up = 0 ∧ ∃ name, names.head? = some name ∧ Fronted name := by
  rw [unescape_written, plain]
  cases up with
  | zero =>
    rw [List.replicate_zero, List.nil_append]
    cases names with
    | nil => simp [isSkipped, hasScheme, interpolates, isLetter]
    | cons first more =>
      obtain ⟨⟨some, _⟩, free⟩ := ordinary first List.mem_cons_self
      rw [if_neg (intercalate_ne_nil some), isSkipped_intercalate some free]
      simp
  | succ up =>
    -- A reference that climbs begins with dots, for which no argument is left alone.
    have dots : ¬Signed ['.', '.'] ∧ ¬Fronted ['.', '.'] := by
      simp [Signed, Fronted, interpolates, hasScheme, isLetter]
    have parents : ∀ part ∈ List.replicate up ['.', '.'], ¬Signed part := by
      intro part mem
      rw [List.eq_of_mem_replicate mem]
      exact dots.1
    rw [List.replicate_succ, List.cons_append, if_neg (intercalate_ne_nil (by simp)),
      isSkipped_intercalate (by simp) (by decide)]
    constructor
    · rintro (⟨name, mem, signed⟩ | fronted)
      · rcases List.mem_cons.mp mem with rfl | mem
        · exact absurd signed dots.1
        · rcases List.mem_append.mp mem with parent | mem
          · exact absurd signed (parents name parent)
          · exact .inl ⟨name, mem, signed⟩
      · exact absurd fronted dots.2
    · rintro (⟨name, mem, signed⟩ | ⟨none, _⟩)
      · exact .inl ⟨name, List.mem_cons_of_mem _ (List.mem_append_right _ mem), signed⟩
      · simp at none

/-- A rebased reference is never read as a call. It is left alone exactly for a sign in one of the names below the
common directory, or, where it has no `..`, for the front of the first of them. -/
theorem rebase?_misread_iff (file : String) (entryDir : Path) (value : String) {r : List Char}
    (hfile : (Path.ofString file).isAbsolute = true) (hentry : entryDir.isAbsolute = true)
    (h : rebase? value.toList (Path.ofString file) entryDir = some r) :
    let target := (Path.ofString file).join (Path.ofString value)
    isCall r = false ∧
      (isSkipped (unescape r) = true ↔ (∃ name ∈ entryDir.below target, Signed name) ∨
        entryDir.Contains target ∧ ∃ name, (entryDir.below target).head? = some name ∧ Fronted name) := by
  intro target
  obtain ⟨_, _, same⟩ := rebase?_eq_some h
  have absolute := Path.isAbsolute_join hfile (Path.ofString value)
  have text : ∃ t, target.bytes = encode t := Path.exists_text_join ⟨_, rfl⟩ ⟨_, rfl⟩
  obtain ⟨up, route, level, ordinary⟩ := Path.exists_climb absolute hentry text
  have written_ : r = written (target.relativeTo entryDir).toSlash := same
  constructor
  · obtain ⟨plain, _, escaped⟩ := exists_written_eq_escape (target.relativeTo entryDir).toSlash
    have whole : r ++ [] = escape plain := by rw [List.append_nil, written_, escaped]
    exact isCall_of_append whole
  · rw [written_, Path.toSlash_relativeTo absolute hentry, route, isSkipped_climb ordinary, level]

-- A fragment behind a dot, and without it.
theorem rebase?_dotted_fragment :
    rebase? "./#x".toList "/e" "/e" = some "#x".toList ∧ isSkipped (unescape "#x".toList) = true := by
  decide +kernel

theorem rebase?_misread_iff_dotted :
    (Path.ofString "/e").isAbsolute = true ∧ rebase? "./#x".toList (Path.ofString "/e") "/e" = some "#x".toList ∧
      isCall "#x".toList = false ∧ isSkipped (unescape "#x".toList) = true := by
  have absolute : (Path.ofString "/e").isAbsolute = true := by decide
  have rebased : rebase? "./#x".toList (Path.ofString "/e") "/e" = some "#x".toList := by decide +kernel
  obtain ⟨noCall, misread⟩ := rebase?_misread_iff "/e" "/e" "./#x" absolute absolute rebased
  have within : (Path.ofString "/e").Contains ((Path.ofString "/e").join (Path.ofString "./#x")) := by
    unfold Path.Contains
    decide +kernel
  have below : (Path.ofString "/e").below ((Path.ofString "/e").join (Path.ofString "./#x")) = ["#x".toList] := by
    decide +kernel
  refine ⟨absolute, rebased, noCall, misread.mpr (.inr ⟨within, "#x".toList, ?_, .inl rfl⟩)⟩
  rw [below]
  rfl

end Reference

end StylesheetImports
