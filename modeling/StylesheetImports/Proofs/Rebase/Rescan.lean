import StylesheetImports.Proofs.Rebase.Reread.Step

set_option autoImplicit false

namespace StylesheetImports

open Lexeme

namespace Token

def listed? (t : Token) : Option (String × Bool) :=
  match t.kind with
  | .specifier value fromImport => some (String.ofList value, fromImport)
  | _ => none

end Token

theorem Scan.specifiers_ofTokens (start : Nat) (tokens : List Token) :
    (ofTokens start tokens).specifiers.map (fun spec => (spec.value, spec.fromImport)) =
      tokens.filterMap Token.listed? := by
  induction tokens generalizing start with
  | nil => rfl
  | cons t tokens ih =>
    rw [ofTokens, List.filterMap_cons, Token.listed?]
    cases t.kind with
    | plain => exact ih _
    | argument value => exact ih _
    | specifier value fromImport => simp [ih]

namespace Rebaser

variable {r : Rebaser} {fileDir : Path}

/-- A specifier as it stands in a rebased stylesheet. -/
def carried (r : Rebaser) (fileDir : Path) (specifier : String) : String :=
  if r.isPackage specifier then ({ origin := fileDir, specifier } : PackedSpecifier).encode else specifier

theorem listed?_reread (t : Token) :
    (r.reread fileDir t).listed? =
      t.listed?.map fun (value, fromImport) => (r.carried fileDir value, fromImport) := by
  cases kind : t.kind with
  | plain =>
    have none : r.newText? fileDir t = none := by rw [newText?, kind]
    simp [reread_of_none none, Token.listed?, kind]
  | argument value =>
    cases edited : r.newText? fileDir t with
    | none => simp [reread_of_none edited, Token.listed?, kind]
    | some new => simp [reread_argument kind edited, Token.listed?, kind]
  | specifier value fromImport =>
    by_cases package : r.isPackage (String.ofList value) = true
    · have edited : r.newText? fileDir t = some (packed fileDir value).quoted.toList := by
        rw [newText?, kind]
        exact if_pos package
      simp [reread_specifier kind edited, Token.listed?, kind, carried, package, packed]
    · have edited : r.newText? fileDir t = none := by
        rw [newText?, kind]
        exact if_neg package
      simp [reread_of_none edited, Token.listed?, kind, carried, package]

theorem listed?_rereadFrom (blanks : List Char) (tokens : List Token) :
    (r.rereadFrom fileDir blanks tokens).filterMap Token.listed? =
      (tokens.filterMap Token.listed?).map fun (value, fromImport) =>
        (r.carried fileDir value, fromImport) := by
  induction tokens generalizing blanks with
  | nil => rfl
  | cons t tokens ih =>
    -- The blanks that the token before sheds are no part of what this one lists.
    have head :
        ({ text := blanks ++ (r.reread fileDir t).text
           kind := (r.reread fileDir t).kind } : Token).listed? = (r.reread fileDir t).listed? := rfl
    rw [rereadFrom, List.filterMap_cons, List.filterMap_cons, head, listed?_reread, ih]
    cases t.listed? <;> rfl

/-- A rebased stylesheet is read token by token as it was written just when it reads back. Then a scan finds in
it the specifiers of the stylesheet, in their order and imported or not as before, with packages packed. -/
theorem rebase_keeps_specifiers (r : Rebaser) (text : String) (fileDir : Path) :
    (Token.ofText (r.rebase text fileDir).1.toList = r.rereadFrom fileDir [] (Token.ofText text.toList) ↔
        r.readsBack fileDir text = true) ∧
      (r.readsBack fileDir text = true ->
        (Scan.ofText (r.rebase text fileDir).1).specifiers.map (fun spec => (spec.value, spec.fromImport)) =
          (Scan.ofText text).specifiers.map fun spec => (r.carried fileDir spec.value, spec.fromImport)) := by
  have content : (r.rebase text fileDir).1.toList = r.rewrittenFrom fileDir false text.toList :=
    (rebase_eq_rewritten r text fileDir).1
  have readAgain : Token.ofText (r.rebase text fileDir).1.toList =
      r.rereadFrom fileDir [] (Token.ofText text.toList) ↔ r.readsBack fileDir text = true := by
    rw [content]
    exact tokensFrom_rewritten false text.toList
  refine ⟨readAgain, fun back => ?_⟩
  have found := Scan.specifiers_ofTokens 0 (Token.ofText text.toList)
  rw [Scan.ofText, Scan.specifiers_ofTokens, readAgain.mpr back, listed?_rereadFrom, ← found, List.map_map]
  rfl

-- A package and a local stylesheet in one rule, and a quoted argument.
def quotedLine : String :=
  "@import '~k', 'l';a\x7bb:url( \"it's\" )\x7d"

theorem rebase_keeps_specifiers_quotedLine :
    (anchored "/p" defaultMarks false).readsBack "/p/s" quotedLine = true ∧
      (Scan.ofText ((anchored "/p" defaultMarks false).rebase quotedLine "/p/s").1).specifiers.map
          (fun spec => (spec.value, spec.fromImport)) =
        [("sassbase-pkg:?origin=%2Fp%2Fs&spec=%7Ek", true), ("l", true)] := by
  have back : (anchored "/p" defaultMarks false).readsBack "/p/s" quotedLine = true := by decide +kernel
  refine ⟨back, ((rebase_keeps_specifiers _ quotedLine "/p/s").2 back).trans ?_⟩
  decide +kernel

-- A quoted argument with its parenthesis on the next line.
def brokenLine : String :=
  "a\x7bb:url(\"it's.png\"\n)\x7d\n@import 'foo';"

-- The quotes that guarded the line break are gone, and with them the specifier behind it.
theorem rebase_loses_specifier :
    (Scan.ofText brokenLine).specifiers.map (fun spec => (spec.value, spec.fromImport)) = [("foo", true)] ∧
      (Scan.ofText ((anchored "/w" defaultMarks false).rebase brokenLine "/w/s").1).specifiers = [] := by
  constructor <;> decide +kernel

end Rebaser

end StylesheetImports
