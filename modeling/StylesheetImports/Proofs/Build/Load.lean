import StylesheetImports.Build.Load
import StylesheetImports.Proofs.Rebase.Rewriting
import StylesheetImports.Proofs.Storage.Query
import StylesheetImports.Proofs.Url.Reader
import StylesheetImports.Resolve.Package

set_option autoImplicit false

namespace StylesheetImports

open Utf8

namespace Scan

theorem exists_of_mem_specifiers {start : Nat} {tokens : List Token} {spec : Specifier}
    (h : spec ∈ (ofTokens start tokens).specifiers) :
    ∃ left t right, tokens = left ++ t :: right ∧
      t.kind = .specifier spec.value.toList spec.fromImport ∧
      spec.span.start = start + size (Token.source left) ∧
      spec.span.stop = spec.span.start + size t.text := by
  induction tokens generalizing start with
  | nil => simp [ofTokens, empty] at h
  | cons t tokens ih =>
    have later (mem : spec ∈ (ofTokens (start + size t.text) tokens).specifiers) :
        ∃ left u right, t :: tokens = left ++ u :: right ∧
          u.kind = .specifier spec.value.toList spec.fromImport ∧
          spec.span.start = start + size (Token.source left) ∧
          spec.span.stop = spec.span.start + size u.text := by
      obtain ⟨left, u, right, rfl, kind, first, last⟩ := ih mem
      refine ⟨t :: left, u, right, rfl, kind, ?_, last⟩
      rw [first, Token.source_cons, size_append, Nat.add_assoc]
    rw [ofTokens] at h
    cases kind : t.kind with
    | plain =>
      rw [kind] at h
      exact later h
    | argument value =>
      rw [kind] at h
      exact later h
    | specifier value fromImport =>
      rw [kind] at h
      rcases List.mem_cons.mp h with rfl | mem
      · exact ⟨[], t, tokens, rfl, by simp [kind], by simp, rfl⟩
      · exact later mem

end Scan

namespace Resolver

def found (find : Finder) (specifier : String) (fromImport : Bool) (origin : Path) : Query Resolution := do
  match ← find specifier fromImport origin with
  | none => pure .absent
  | some location => if location.isFile then resolve location fromImport true else pure .absent

theorem packages_encode (find : Finder) {p : PackedSpecifier} (text : ∃ t, p.origin.bytes = Utf8.encode t)
    (fromImport : Bool) : packages find p.encode fromImport = found find p.specifier fromImport p.origin := by
  rw [packages, p.ofSpecifier?_encode]
  simp only [PackedSpecifier.decode?_encode text]
  rfl

end Resolver

namespace Rebaser

def loaded (r : Rebaser) (location : Url) (path : Path) (text : String) : Loaded :=
  { content := (r.rebase text (path.parent?.getD "/")).1
    dialect := Dialect.ofPath path
    canonical := location
    replacements := (r.rebase text (path.parent?.getD "/")).2.length }

theorem answer_load (r : Rebaser) (fixed : Answers Id) (location : Url) :
    (r.load location).answer fixed =
      location.toPath?.bind fun path => (fixed.text path).map (r.loaded location path) := by
  unfold load
  cases location.toPath? with
  | none => rfl
  | some path =>
    simp only [Query.bind_eq, Query.answer_bind, Query.answer_read, Option.bind_some]
    cases fixed.text path with
    | none => rfl
    | some text =>
      change Query.answer fixed (if _ then _ else _) = _
      split <;> rfl

theorem newText?_package {r : Rebaser} {fileDir : Path} {t : Token} {value : List Char} {fromImport : Bool}
    (kind : t.kind = .specifier value fromImport) (package : r.isPackage (String.ofList value) = true) :
    r.newText? fileDir t = some ('"' :: (packed fileDir value).encode.toList ++ ['"']) := by
  rw [newText?, kind]
  simp [package, PackedSpecifier.quoted]

/-- A package specifier of a loaded stylesheet stands there packed, between double quotes. The packed form is no
location of a file, and a finder is asked for it once: for the specifier as it was written, from the directory
of the stylesheet. -/
theorem load_packs_origin (r : Rebaser) (view : View) {location : Url} {path : Path} {text : String}
    (there : location.toPath? = some path) (holds : view.text path = some text)
    (dirText : ∃ t, (path.parent?.getD "/").bytes = Utf8.encode t) :
    ∃ loaded, (r.load location).eval view = some loaded ∧
      ∀ spec ∈ (Scan.ofText text).specifiers, r.isPackage spec.value = true ->
        ∃ (left right : List Token) (t : Token) (packed : String),
          Token.ofText text.toList = left ++ t :: right ∧
          spec.span = { start := size (Token.source left), stop := size (Token.source left) + size t.text } ∧
          (t.text = spec.value.toList ∨
            ∃ quote, Lexeme.isQuote quote = true ∧ t.text = quote :: spec.value.toList ++ [quote]) ∧
          loaded.content.toList = r.rewritten (path.parent?.getD "/") left ++
            ('"' :: packed.toList ++ ['"']) ++ r.rewritten (path.parent?.getD "/") right ∧
          Url.ofSpecifier? packed = none ∧
          ∀ (find : Finder) (fromImport : Bool), Resolver.packages find packed fromImport =
            Resolver.found find spec.value fromImport (path.parent?.getD "/") := by
  refine ⟨r.loaded location path text, ?_, fun spec mem package => ?_⟩
  · have answer : view.answers.text path = some text := holds
    rw [Query.eval_eq_answer, answer_load, there, Option.bind_some, answer, Option.map_some]
  obtain ⟨left, t, right, tokens, kind, first, last⟩ := Scan.exists_of_mem_specifiers mem
  have inText : t ∈ Token.tokensFrom false text.toList := by
    rw [← Token.ofText, tokens]
    exact List.mem_append_right left List.mem_cons_self
  have span : spec.span = { start := size (Token.source left), stop := size (Token.source left) + size t.text } := by
    rw [Nat.zero_add] at first
    rw [← first, ← last]
  have new : r.newText? (path.parent?.getD "/") t =
      some ('"' :: (packed (path.parent?.getD "/") spec.value.toList).encode.toList ++ ['"']) :=
    newText?_package kind (by rwa [String.ofList_toList])
  refine ⟨left, right, t, (packed (path.parent?.getD "/") spec.value.toList).encode, tokens, span,
    Token.text_of_specifier inText kind, ?_, PackedSpecifier.ofSpecifier?_encode _, fun find fromImport => ?_⟩
  · have content := (rebase_eq_rewritten r text (path.parent?.getD "/")).1
    rw [tokens, rewritten_append, rewritten_cons, new, Option.getD_some, ← List.append_assoc] at content
    exact content
  · rw [Resolver.packages_encode find dirText, packed, String.ofList_toList]

-- A stylesheet that uses a package by a word without quotes, and nothing else is there.
def wordView : View :=
  { directory := fun _ => none
    text := fun file => if file = "/p/ü s/a.sass" then some "a\n@use ~k/l\n" else none }

def wordLocation : Url :=
  Url.ofSegments ["p".toList, "%C3%BC%20s".toList, "a.sass".toList]

theorem load_packs_origin_word :
    wordLocation.toPath? = some "/p/ü s/a.sass" ∧
      wordView.text "/p/ü s/a.sass" = some "a\n@use ~k/l\n" ∧
        ∃ packed, Url.ofSpecifier? packed = none ∧ ∀ (find : Finder) (fromImport : Bool),
          Resolver.packages find packed fromImport = Resolver.found find "~k/l" fromImport "/p/ü s" := by
  have there : wordLocation.toPath? = some "/p/ü s/a.sass" := by decide +kernel
  have holds : wordView.text "/p/ü s/a.sass" = some "a\n@use ~k/l\n" := by decide +kernel
  have dir : (Path.parent? "/p/ü s/a.sass").getD "/" = "/p/ü s" := by decide +kernel
  have found : { span := { start := 7, stop := 11 }, value := "~k/l", fromImport := false } ∈
      (Scan.ofText "a\n@use ~k/l\n").specifiers := by decide +kernel
  have dirText : ∃ t, ((Path.parent? "/p/ü s/a.sass").getD "/").bytes = encode t := by
    rw [dir]
    exact ⟨"/p/ü s".toList, rfl⟩
  obtain ⟨_, _, packs⟩ :=
    load_packs_origin (anchored "/p" defaultMarks false) wordView there holds dirText
  obtain ⟨_, _, _, packed, _, _, _, _, noFile, asked⟩ := packs _ found (by decide +kernel)
  rw [dir] at asked
  exact ⟨there, holds, packed, noFile, asked⟩

end Rebaser

end StylesheetImports
