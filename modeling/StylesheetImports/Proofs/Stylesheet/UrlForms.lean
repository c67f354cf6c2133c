import StylesheetImports.Proofs.Stylesheet.Exactness

set_option autoImplicit false

namespace StylesheetImports

open Utf8 Lexeme

theorem Lexeme.mem_of_urlOpening? {cs opening inside : List Char}
    (h : urlOpening? cs = some (opening, inside)) : '(' ∈ cs := by
  unfold urlOpening? at h
  split at h
  next => simp
  next => simp at h

namespace Scan

theorem arguments_of_no_opening {afterIdent : Bool} {text : List Char} (noOpen : '(' ∉ text) (start : Nat) :
    (scanFrom afterIdent start text).arguments = [] := by
  induction afterIdent, text using Token.tokensFrom_induction generalizing start with
  | nil afterIdent => rw [scanFrom_nil, empty]
  | step afterIdent text s reads ih =>
    have behind : '(' ∉ s.rest := by
      rw [← reads.source_eq] at noOpen
      exact fun mem => noOpen (List.mem_append_right _ mem)
    have silent : (ofTokens start s.tokens).arguments = [] := by
      cases reads with
      | rule named => exact arguments_ruleTokens _ _ _
      | url apart read =>
        obtain ⟨opening, before, c, rest, arg, closing, -, opens, -⟩ := Token.exists_of_urlTokens? read
        exact absurd (mem_of_urlOpening? opens) noOpen
      | _ => rfl
    rw [scanFrom_step reads, arguments_append, silent, ih behind, List.append_nil]

-- What is no argument is read character by character, and nothing opens behind its parenthesis.
theorem arguments_of_unread {inside : List Char} (unread : Token.urlTokens? ('u' :: 'r' :: 'l' :: '(' :: inside) = none)
    (noOpen : '(' ∉ inside) (start : Nat) :
    (scanFrom false start ('u' :: 'r' :: 'l' :: '(' :: inside)).arguments = [] := by
  rw [scanFrom_char (by decide) (by decide) (by decide) fun _ => unread,
    scanFrom_char (by decide) (by decide) (by decide) fun _ => Token.urlTokens?_eq_none (by decide) (by decide) _,
    scanFrom_char (by decide) (by decide) (by decide) fun _ => Token.urlTokens?_eq_none (by decide) (by decide) _,
    scanFrom_char (by decide) (by decide) (by decide) fun _ => Token.urlTokens?_eq_none (by decide) (by decide) _]
  exact arguments_of_no_opening noOpen _

end Scan

namespace Fragment

/-- A text that needs no quotes in `url(...)`, quotes that it can have, and the white space around it. -/
structure UrlWord where
  before : List Char
  quote : Char
  value : List Char
  after : List Char
  blankBefore : ∀ c ∈ before, isSpace c = true
  isQuote : isQuote quote = true
  some : value ≠ []
  plain : ∀ c ∈ value, isSpace c = false ∧ Lexeme.isQuote c = false ∧ c ≠ '(' ∧ c ≠ ')' ∧ c ≠ '\\'
  noBraces : ¬ ['#', '\x7b'] <:+: value
  blankAfter : ∀ c ∈ after, isSpace c = true

namespace UrlWord

def quoted (w : UrlWord) : List Char :=
  w.quote :: w.value ++ [w.quote]

def call (w : UrlWord) (written : List Char) : String :=
  String.ofList (['u', 'r', 'l', '('] ++ w.before ++ written ++ w.after ++ [')'])

def argument (w : UrlWord) (written : List Char) : Argument :=
  let first := size (['u', 'r', 'l', '('] ++ w.before)
  { span := { start := first, stop := first + size written }, value := String.ofList w.value }

variable (w : UrlWord)

theorem scan_call {c : Char} {written inside : List Char} (head : written = c :: inside) (stop : isSpace c = false)
    (read : Token.argument? c (inside ++ (w.after ++ [')'])) =
      .some ({ text := written, kind := .argument w.value }, w.after ++ [')'], [])) :
    Scan.ofText (w.call written) = { arguments := [w.argument written], specifiers := [] } := by
  have opens : ['u', 'r', 'l', '('].map Char.toLower = ['u', 'r', 'l', '('] := by decide
  have found := Scan.scanFrom_url opens w.blankBefore stop read 0
  have whole : (w.call written).toList = ['u', 'r', 'l', '('] ++ (w.before ++ c :: (inside ++ (w.after ++ [')']))) := by
    simp [call, head]
  rw [Scan.scanFrom_nil, Scan.append_empty] at found
  rw [Scan.ofText, whole]
  refine found.trans ?_
  simp [Scan.ofTokens, Scan.empty, argument]

theorem scan_quoted :
    Scan.ofText (w.call w.quoted) = { arguments := [w.argument w.quoted], specifiers := [] } := by
  have closed := quoted_plain w.isQuote fun c mem =>
    have noLine : c ≠ '\n' := by
      rintro rfl
      exact absurd (w.plain _ mem).1 (by decide)
    have noQuote : c ≠ w.quote := by
      rintro rfl
      exact absurd w.isQuote (by simp [(w.plain _ mem).2.1])
    ⟨noQuote, (w.plain c mem).2.2.2.2, noLine⟩
  have read := Token.argument?_string w.isQuote closed w.blankAfter []
  rw [unescape_plain fun mem => (w.plain _ mem).2.2.2.2 rfl] at read
  have written : w.quoted = w.quote :: (w.value ++ [w.quote]) := rfl
  refine w.scan_call written (not_isSpace_of_isQuote w.isQuote) ?_
  rw [List.append_assoc, List.singleton_append, read]
  rfl

theorem scan_bare (here : '\n' ∉ w.after) :
    Scan.ofText (w.call w.value) = { arguments := [w.argument w.value], specifiers := [] } := by
  obtain ⟨c, inside, same⟩ := List.exists_cons_of_ne_nil w.some
  have read := Token.argument?_bare (same ▸ w.plain) (same ▸ w.noBraces) w.blankAfter []
  rw [if_neg here, ← same] at read
  exact w.scan_call same (w.plain c (by simp [same])).1 read

theorem arguments_bare (line : '\n' ∈ w.after) : (Scan.ofText (w.call w.value)).arguments = [] := by
  obtain ⟨c, inside, same⟩ := List.exists_cons_of_ne_nil w.some
  have letters : ['u', 'r', 'l', '('].map Char.toLower = ['u', 'r', 'l', '('] := by decide
  have opens := urlOpening?_of_toLower letters (w.before ++ c :: (inside ++ (w.after ++ [')'])))
  have unread := Token.urlTokens?_of_opening opens w.blankBefore (w.plain c (by simp [same])).1
  rw [Token.argument?_bare (same ▸ w.plain) (same ▸ w.noBraces) w.blankAfter [], if_pos line] at unread
  have noOpen : '(' ∉ w.before ++ c :: (inside ++ (w.after ++ [')'])) := by
    rw [← List.cons_append, ← same]
    simp only [List.mem_append, List.mem_singleton, not_or]
    refine ⟨fun mem => ?_, fun mem => (w.plain _ mem).2.2.1 rfl, fun mem => ?_, by decide⟩
    · exact absurd (w.blankBefore _ mem) (by decide)
    · exact absurd (w.blankAfter _ mem) (by decide)
  have whole : (w.call w.value).toList =
      'u' :: 'r' :: 'l' :: '(' :: (w.before ++ c :: (inside ++ (w.after ++ [')']))) := by
    simp [call, same]
  rw [Scan.ofText, whole]
  exact Scan.arguments_of_unread unread noOpen 0

/-- An argument is found in its quotes. Without them it is found, as the same value, just when no line ends between it
and its parenthesis; else nothing is found. -/
theorem scan_urlForms :
    Scan.ofText (w.call w.quoted) = { arguments := [w.argument w.quoted], specifiers := [] } ∧
      (Scan.ofText (w.call w.value) = { arguments := [w.argument w.value], specifiers := [] } ↔ '\n' ∉ w.after) ∧
        ((Scan.ofText (w.call w.value)).arguments = [] ↔ '\n' ∈ w.after) := by
  by_cases line : '\n' ∈ w.after
  next =>
    have none := w.arguments_bare line
    refine ⟨w.scan_quoted, ⟨fun found => ?_, fun here => absurd line here⟩, fun _ => line, fun _ => none⟩
    rw [found] at none
    simp at none
  next =>
    have found := w.scan_bare line
    refine ⟨w.scan_quoted, ⟨fun _ => line, fun _ => found⟩, fun none => ?_, fun mem => absurd mem line⟩
    rw [found] at none
    simp at none

-- The parenthesis on the next line, behind a string and behind a bare argument.
theorem scan_urlForms_nextLine :
    (Scan.ofText "url(\"a.png\"\n)").arguments = [{ span := { start := 4, stop := 11 }, value := "a.png" }] ∧
      (Scan.ofText "url(a.png\n)").arguments = [] := by
  constructor <;> decide +kernel

end UrlWord

end Fragment

end StylesheetImports
