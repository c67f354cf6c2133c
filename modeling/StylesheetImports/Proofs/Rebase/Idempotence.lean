import StylesheetImports.Proofs.Rebase.Rescan

set_option autoImplicit false

namespace StylesheetImports

open Lexeme

theorem Path.relativeTo_normalize (target base : Path) :
    target.relativeTo base.normalize = target.relativeTo base := by
  rw [relativeTo, relativeTo, normalize_normalize]

namespace Reference

theorem rebase?_unescape {dir : String} {value new again : List Char}
    (absolute : (Path.ofString dir).isAbsolute = true)
    (h : rebase? value (Path.ofString dir) (Path.ofString dir).normalize = some new)
    (ha : rebase? (unescape new) (Path.ofString dir) (Path.ofString dir).normalize = some again) :
    again = new := by
  obtain ⟨_, _, same⟩ := rebase?_eq_some h
  obtain ⟨_, _, sameAgain⟩ := rebase?_eq_some ha
  rw [Path.relativeTo_normalize] at same sameAgain
  have text : ∃ t, ((Path.ofString dir).join { bytes := Utf8.encode value }).bytes = Utf8.encode t :=
    Path.exists_text_join ⟨_, rfl⟩ ⟨_, rfl⟩
  have leads := normalize_join_written (Path.isAbsolute_join absolute _) absolute text
  rw [← same] at leads
  rw [sameAgain, Path.relativeTo_congr leads, ← same]

theorem ne_trimEnd_of_rebase? {value new again relative : List Char} {fileDir entryDir : Path}
    (escaped : new = escape relative) (blank : endBlanks new ≠ [])
    (h : rebase? value fileDir entryDir = some again) : trimEnd new ≠ again := by
  intro same
  obtain ⟨_, _, written_⟩ := rebase?_eq_some h
  obtain ⟨first, _, escapedFirst⟩ := exists_written_eq_escape
    ((fileDir.join { bytes := Utf8.encode value }).relativeTo entryDir).toSlash
  have whole := trimEnd_append new
  rw [same, written_, escapedFirst] at whole
  obtain ⟨last, rest⟩ := exists_escape_of_append (escaped.symm.trans whole.symm)
  -- The blanks begin with a blank, which has no backslash before it.
  obtain ⟨c, blanks, first_⟩ := List.exists_cons_of_ne_nil blank
  have space : isSpace c = true := isSpace_of_mem_endBlanks (first_ ▸ List.mem_cons_self)
  rw [(Rebaser.head_escape (rest.symm.trans first_)).2] at space
  exact absurd space (by decide)

end Reference

namespace Rebaser

variable {r : Rebaser} {fileDir : Path}

-- Whether a token of a stylesheet in `fileDir` stays as it is read in the rebased stylesheet: a new
-- argument has no blank at its end, or what is left of it without that blank is left alone.
def settlesAt (r : Rebaser) (fileDir : Path) (t : Token) : Bool :=
  match t.kind, r.newText? fileDir t with
  | .argument _, some new =>
    endBlanks new = [] || (Reference.rebase? (unescape (trimEnd new)) fileDir r.entryDir).isNone
  | _, _ => true

/-- Whether a stylesheet in `fileDir` stays when it is rebased once more. -/
def settles (r : Rebaser) (fileDir : Path) (text : String) : Bool :=
  (Token.ofText text.toList).all (r.settlesAt fileDir)

theorem isPackage_encode (dir : Path) (reports : Bool) (p : PackedSpecifier) :
    (anchored dir defaultMarks reports).isPackage p.encode = false := by
  obtain ⟨rest, same⟩ : ∃ rest, p.encode.toList = 's' :: rest := by
    rw [PackedSpecifier.encode, String.toList_ofList]
    exact ⟨_, rfl⟩
  rw [isPackage, List.any_eq_false]
  intro mark mem
  rw [same]
  have marks : mark = "~" ∨ mark = "pkg:" := by simpa [anchored, defaultMarks] using mem
  rcases marks with rfl | rfl <;> simp [List.isPrefixOf]

section

variable {dir : String} {reports : Bool}

theorem newText?_reread (absolute : (Path.ofString dir).isAbsolute = true) (t : Token) :
    (anchored dir defaultMarks reports).newText? dir ((anchored dir defaultMarks reports).reread dir t) =
        none ↔
      (anchored dir defaultMarks reports).settlesAt dir t = true := by
  rw [settlesAt]
  cases edited : (anchored dir defaultMarks reports).newText? dir t with
  | none => simp [reread_of_none edited, edited]
  | some new =>
    cases kind : t.kind with
    | plain => simp [newText?, kind] at edited
    | specifier value fromImport =>
      simp [reread_specifier kind edited, newText?, isPackage_encode]
    | argument value =>
      obtain ⟨relative, _, escaped⟩ := exists_escape_of_newText? kind edited
      have written := (newText?_argument kind edited).1
      have noCall : Reference.isCall (trimEnd new) = false :=
        Reference.isCall_of_append ((trimEnd_append new).trans escaped)
      rw [reread_argument kind edited, newText?]
      simp only [noCall, Bool.or_eq_true, decide_eq_true_eq]
      cases again : Reference.rebase? (unescape (trimEnd new)) dir
          (anchored dir defaultMarks reports).entryDir with
      | none => simp
      | some newer =>
        by_cases blank : endBlanks new = []
        · -- Nothing is trimmed, so the argument names the path it was written for.
          have kept := trimEnd_append new
          rw [blank, List.append_nil] at kept
          rw [kept] at again ⊢
          simp [blank, Reference.rebase?_unescape absolute written again]
        · simp [blank, Reference.ne_trimEnd_of_rebase? escaped blank again]

/-- A rebased stylesheet of the entry directory that reads back stays as it is, and nothing is reported as
replaced, just when its new arguments do. -/
theorem rebase_rebase (text : String) (absolute : (Path.ofString dir).isAbsolute = true)
    (back : (anchored dir defaultMarks reports).readsBack dir text = true) :
    (anchored dir defaultMarks reports).rebase ((anchored dir defaultMarks reports).rebase text dir).1 dir =
        (((anchored dir defaultMarks reports).rebase text dir).1, .empty) ↔
      (anchored dir defaultMarks reports).settles dir text = true := by
  have content := (rebase_eq_rewritten (anchored dir defaultMarks reports) text dir).1
  have again : Token.ofText ((anchored dir defaultMarks reports).rebase text dir).1.toList =
      (anchored dir defaultMarks reports).rereadFrom dir [] (Token.ofText text.toList) := by
    rw [content]
    exact (tokensFrom_rewritten false text.toList).mpr back
  rw [rebase_eq_self_iff, again, Token.ofText, forall_mem_rereadFrom newText?_plain, settles, List.all_eq_true]
  exact forall₂_congr fun t _ => newText?_reread absolute t

-- An argument with a dot, a blank and parentheses.
def dottedLine : String :=
  "a\x7bb:url( \"./c (d)\" )\x7d"

theorem rebase_rebase_dottedLine :
    (Path.ofString "/e").isAbsolute = true ∧
      (anchored "/e" defaultMarks false).readsBack "/e" dottedLine = true ∧
        (anchored "/e" defaultMarks false).rebase
            ((anchored "/e" defaultMarks false).rebase dottedLine "/e").1 "/e" =
          (((anchored "/e" defaultMarks false).rebase dottedLine "/e").1, .empty) := by
  have absolute : (Path.ofString "/e").isAbsolute = true := by decide
  have back : (anchored "/e" defaultMarks false).readsBack "/e" dottedLine = true := by decide +kernel
  refine ⟨absolute, back, (rebase_rebase dottedLine absolute back).mpr ?_⟩
  decide +kernel

-- The blank at the end of a new argument is escaped, and yet the next reading takes it away.
theorem rebase_rebase_endBlank :
    ((anchored "/e" defaultMarks false).rebase "a\x7bb:url(\"c \")\x7d" "/e").1 = "a\x7bb:url(c\\ )\x7d" ∧
      ((anchored "/e" defaultMarks false).rebase "a\x7bb:url(c\\ )\x7d" "/e").1 = "a\x7bb:url(c )\x7d" := by
  constructor <;> decide +kernel

end

end Rebaser

end StylesheetImports
