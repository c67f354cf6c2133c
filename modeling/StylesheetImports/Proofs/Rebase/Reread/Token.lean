import StylesheetImports.Proofs.PackedSpecifier
import StylesheetImports.Proofs.Rebase.Reference
import StylesheetImports.Proofs.Rebase.Rewriting

set_option autoImplicit false

namespace StylesheetImports

open Lexeme

namespace Rebaser

section

variable (r : Rebaser) (fileDir : Path)

def reread (t : Token) : Token :=
  match r.newText? fileDir t, t.kind with
  | some new, .argument _ => { text := trimEnd new, kind := .argument (unescape (trimEnd new)) }
  | some new, .specifier value fromImport =>
    { text := new, kind := .specifier (packed fileDir value).encode.toList fromImport }
  | _, _ => t

-- The blanks at the end of a new text, which are read as the start of the next token.
def shed (t : Token) : List Char :=
  endBlanks ((r.newText? fileDir t).getD [])

def rereadFrom : List Char -> List Token -> List Token
  | _, [] => []
  | blanks, t :: tokens =>
    { text := blanks ++ (r.reread fileDir t).text, kind := (r.reread fileDir t).kind } ::
      rereadFrom (r.shed fileDir t) tokens

def rewrittenFrom (afterIdent : Bool) (text : List Char) : List Char :=
  r.rewritten fileDir (Token.tokensFrom afterIdent text)

end

variable {r : Rebaser} {fileDir : Path}

theorem newText?_argument {t : Token} {value new : List Char} (kind : t.kind = .argument value)
    (h : r.newText? fileDir t = some new) :
    Reference.rebase? value fileDir r.entryDir = some new ∧ Reference.isCall t.text = false ∧
      t.text ≠ new := by
  rw [newText?, kind] at h
  simp only at h
  split at h
  next => simp at h
  next noCall =>
    obtain ⟨written, same, h⟩ := Option.bind_eq_some_iff.mp h
    split at h
    next => simp at h
    next change =>
      obtain rfl := Option.some.inj h
      exact ⟨same, by simpa using noCall, change⟩

theorem newText?_specifier {t : Token} {value new : List Char} {fromImport : Bool}
    (kind : t.kind = .specifier value fromImport) (h : r.newText? fileDir t = some new) :
    r.isPackage (String.ofList value) = true ∧
      new = '"' :: ((packed fileDir value).encode.toList ++ ['"']) := by
  rw [newText?, kind] at h
  simp only at h
  split at h
  next package => exact ⟨package, by simpa [PackedSpecifier.quoted] using (Option.some.inj h).symm⟩
  next => simp at h

theorem exists_escape_of_newText? {t : Token} {value new : List Char} (kind : t.kind = .argument value)
    (h : r.newText? fileDir t = some new) : ∃ relative, relative ≠ [] ∧ new = Reference.escape relative := by
  obtain ⟨_, _, same⟩ := Reference.rebase?_eq_some (newText?_argument kind h).1
  exact same ▸ Reference.exists_written_eq_escape _

theorem reread_of_none {t : Token} (h : r.newText? fileDir t = none) : r.reread fileDir t = t := by
  rw [reread, h]

@[simp] theorem reread_plain (text : List Char) : r.reread fileDir (.plain text) = .plain text := rfl

theorem reread_argument {t : Token} {value new : List Char} (kind : t.kind = .argument value)
    (h : r.newText? fileDir t = some new) :
    r.reread fileDir t = { text := trimEnd new, kind := .argument (unescape (trimEnd new)) } := by
  rw [reread, h, kind]

theorem reread_specifier {t : Token} {value new : List Char} {fromImport : Bool}
    (kind : t.kind = .specifier value fromImport) (h : r.newText? fileDir t = some new) :
    r.reread fileDir t =
      { text := new, kind := .specifier (packed fileDir value).encode.toList fromImport } := by
  rw [reread, h, kind]

theorem shed_of_none {t : Token} (h : r.newText? fileDir t = none) : r.shed fileDir t = [] := by
  rw [shed, h]
  rfl

@[simp] theorem shed_plain (text : List Char) : r.shed fileDir (.plain text) = [] :=
  shed_of_none rfl

theorem shed_specifier {t : Token} {value : List Char} {fromImport : Bool}
    (kind : t.kind = .specifier value fromImport) : r.shed fileDir t = [] := by
  cases h : r.newText? fileDir t with
  | none => exact shed_of_none h
  | some new =>
    rw [shed, h, (newText?_specifier kind h).2]
    simp [endBlanks, isSpace]

theorem length_rereadFrom {blanks : List Char} {tokens : List Token} :
    (r.rereadFrom fileDir blanks tokens).length = tokens.length := by
  induction tokens generalizing blanks with
  | nil => rfl
  | cons t tokens ih => rw [rereadFrom, List.length_cons, ih, List.length_cons]

theorem rereadFrom_append {tokens : List Token} (h : ∀ t ∈ tokens, r.shed fileDir t = [])
    (later : List Token) :
    r.rereadFrom fileDir [] (tokens ++ later) =
      tokens.map (r.reread fileDir) ++ r.rereadFrom fileDir [] later := by
  induction tokens with
  | nil => rfl
  | cons t tokens ih =>
    rw [List.cons_append, rereadFrom, h t List.mem_cons_self, ih fun u hu => h u (List.mem_cons_of_mem _ hu)]
    rfl

theorem rereadFrom_eq_map {tokens : List Token} (h : ∀ t ∈ tokens, r.shed fileDir t = []) :
    r.rereadFrom fileDir [] tokens = tokens.map (r.reread fileDir) := by
  simpa [rereadFrom] using rereadFrom_append h []

@[simp] theorem rereadFrom_plain (text : List Char) :
    r.rereadFrom fileDir [] [.plain text] = [.plain text] := by
  rw [rereadFrom_eq_map (by simp)]
  rfl

theorem rereadFrom_url {opening closing : List Char} {arg : Token} :
    r.rereadFrom fileDir [] [.plain opening, arg, .plain closing] =
      [.plain opening, r.reread fileDir arg, .plain (r.shed fileDir arg ++ closing)] := by
  simp only [rereadFrom, shed_plain, reread_plain]
  rfl

theorem rewrittenFrom_nil (afterIdent : Bool) : r.rewrittenFrom fileDir afterIdent [] = [] := by
  rw [rewrittenFrom, Token.tokensFrom, rewritten_nil]

theorem rewrittenFrom_eq {afterIdent : Bool} {text : List Char} {s : Token.Step}
    (reads : Token.Reads afterIdent text s) :
    r.rewrittenFrom fileDir afterIdent text =
      r.rewritten fileDir s.tokens ++ r.rewrittenFrom fileDir s.afterIdent s.rest := by
  rw [rewrittenFrom, reads.tokensFrom_eq, rewritten_append, rewrittenFrom]

end Rebaser

end StylesheetImports
