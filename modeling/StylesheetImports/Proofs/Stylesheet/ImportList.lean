import Mathlib.Data.List.Pairwise
import StylesheetImports.Proofs.Stylesheet.Exactness

set_option autoImplicit false

namespace StylesheetImports

open Utf8 Lexeme

namespace Fragment

inductive Letter (quote : Char) where
  | plain (c : Char) (apart : c ≠ quote ∧ c ≠ '\\' ∧ c ≠ '\n')
  | escaped (c : Char)

namespace Letter

variable {quote : Char}

def text : Letter quote -> List Char
  | .plain c _ => [c]
  | .escaped c => ['\\', c]

def char : Letter quote -> Char
  | .plain c _ => c
  | .escaped c => c

theorem quoted_letters (isQuote : isQuote quote = true) (letters : List (Letter quote)) (rest : List Char) :
    quoted quote (letters.flatMap text ++ quote :: rest) = some (letters.flatMap text, rest) := by
  induction letters with
  | nil => exact quoted_plain isQuote (by simp) rest
  | cons l letters ih =>
    rw [List.flatMap_cons, List.append_assoc]
    cases l with
    | plain c apart =>
      obtain ⟨noQuote, noEscape, noLine⟩ := apart
      rw [text, List.singleton_append, quoted.eq_3 _ _ _ (fun _ _ same => absurd same noEscape)]
      simp [noLine, noQuote, ih]
    | escaped c => simp [text, quoted, ih]

theorem unescape_letters (letters : List (Letter quote)) : unescape (letters.flatMap text) = letters.map char := by
  induction letters with
  | nil => rfl
  | cons l letters ih =>
    rw [List.flatMap_cons, List.map_cons, ← ih]
    cases l with
    | plain c apart =>
      obtain ⟨_, noEscape, _⟩ := apart
      rw [text, List.singleton_append, unescape.eq_4 _ _ (fun _ _ same => absurd same noEscape)
        (fun same => absurd same noEscape)]
      rfl
    | escaped c => rfl

end Letter

structure UrlString where
  opening : List Char
  isOpening : opening.map Char.toLower = ['u', 'r', 'l', '(']
  before : List Char
  blankBefore : ∀ c ∈ before, isSpace c = true
  quote : Char
  isQuote : isQuote quote = true
  letters : List (Letter quote)
  after : List Char
  blankAfter : ∀ c ∈ after, isSpace c = true

namespace UrlString

variable (u : UrlString)

def written : List Char :=
  u.quote :: u.letters.flatMap Letter.text ++ [u.quote]

def text : List Char :=
  u.opening ++ u.before ++ u.written ++ u.after ++ [')']

def argumentAt (start : Nat) : Argument :=
  let first := start + size (u.opening ++ u.before)
  { span := { start := first, stop := first + size u.written }
    value := String.ofList (u.letters.map Letter.char) }

theorem scan_text (start : Nat) (rest : List Char) :
    Scan.scanFrom false start (u.text ++ rest) =
      { arguments := [u.argumentAt start], specifiers := [] } ++ Scan.scanFrom false (start + size u.text) rest := by
  have read := Token.argument?_string u.isQuote (Letter.quoted_letters u.isQuote u.letters) u.blankAfter rest
  rw [Letter.unescape_letters] at read
  have found := Scan.scanFrom_url u.isOpening u.blankBefore (not_isSpace_of_isQuote u.isQuote) read start
  have whole : u.text ++ rest = u.opening ++ (u.before ++ u.quote ::
      (u.letters.flatMap Letter.text ++ u.quote :: (u.after ++ ')' :: rest))) := by
    simp [text, written]
  have last : u.opening ++ u.before ++ ((u.quote :: u.letters.flatMap Letter.text ++ [u.quote]) ++
      (u.after ++ [')'])) = u.text := by
    simp [text, written]
  rw [whole, found, last]
  rfl

theorem opens (rest : List Char) : (urlOpening? (u.text ++ rest)).isSome = true := by
  have read := urlOpening?_of_toLower u.isOpening (u.before ++ u.written ++ u.after ++ ')' :: rest)
  have whole : u.text ++ rest = u.opening ++ (u.before ++ u.written ++ u.after ++ ')' :: rest) := by simp [text]
  rw [whole, read]
  rfl

-- A rule lists no specifier where a `url(...)` stands.
theorem unlisted (rest : List Char) :
    gap .space (u.text ++ rest) = ([], u.text ++ rest) ∧ Token.specifier? true (u.text ++ rest) = none := by
  have opens := u.opens rest
  obtain ⟨c, inside, same⟩ : ∃ c inside, u.text ++ rest = c :: inside := by
    cases read : u.text ++ rest with
    | nil => simp [read, urlOpening?] at opens
    | cons c inside => exact ⟨c, inside, rfl⟩
  rw [same] at opens ⊢
  have letter : c ≠ '/' ∧ isSpace c = false ∧ Lexeme.isQuote c = false := by
    rcases Token.letter_of_urlOpening? opens with rfl | rfl <;> decide
  obtain ⟨noSlash, noBlank, noQuote⟩ := letter
  rw [gap_space_cons noSlash, Token.specifier?]
  simp [noBlank, noQuote, opens]

end UrlString

inductive Import where
  | string (q : Quoted)
  | url (u : UrlString)

namespace Import

def text : Import -> List Char
  | .string q => q.text
  | .url u => u.text

def isString : Import -> Bool
  | .string _ => true
  | .url _ => false

def argumentAt? (start : Nat) : Import -> Option Argument
  | .string _ => none
  | .url u => some (u.argumentAt start)

def specifierAt? (start : Nat) : Import -> Option Specifier
  | .string q =>
    some {
      span := { start, stop := start + size q.text }
      value := String.ofList q.body
      fromImport := true }
  | .url _ => none

def references (entries : List (Nat × Import)) : Scan where
  arguments := entries.filterMap fun (start, i) => i.argumentAt? start
  specifiers := entries.filterMap fun (start, i) => i.specifierAt? start

/-- What is reported of entries: all but the strings behind the first `url(...)`. -/
def reported (entries : List (Nat × Import)) : Scan where
  arguments := entries.filterMap fun (start, i) => i.argumentAt? start
  specifiers := (entries.takeWhile fun (_, i) => i.isString).filterMap fun (start, i) => i.specifierAt? start

def unlisted (entries : List (Nat × Import)) : Scan where
  arguments := entries.filterMap fun (start, i) => i.argumentAt? start
  specifiers := []

variable {start : Nat} {entries : List (Nat × Import)}

theorem references_cons (i : Import) :
    references ((start, i) :: entries) = references [(start, i)] ++ references entries := by
  cases i <;> rfl

theorem unlisted_cons (i : Import) :
    unlisted ((start, i) :: entries) = unlisted [(start, i)] ++ unlisted entries := by
  cases i <;> rfl

theorem reported_string (q : Quoted) :
    reported ((start, .string q) :: entries) = references [(start, .string q)] ++ reported entries := rfl

theorem reported_url (u : UrlString) :
    reported ((start, .url u) :: entries) = references [(start, .url u)] ++ unlisted entries := rfl

theorem unlisted_eq_iff : unlisted entries = references entries ↔ ∀ e ∈ entries, e.2.isString = false := by
  have listed : ∀ e : Nat × Import, e.2.specifierAt? e.1 = none ↔ e.2.isString = false := by
    rintro ⟨start, q | u⟩
    · constructor <;> rintro ⟨⟩
    · exact ⟨fun _ => rfl, fun _ => rfl⟩
  have same : unlisted entries = references entries ↔ (references entries).specifiers = [] := by
    constructor
    · intro whole
      rw [← whole, unlisted]
    · intro none
      exact congrArg (Scan.mk _) none.symm
  rw [same, references, List.filterMap_eq_nil_iff]
  exact forall₂_congr fun e _ => listed e

theorem reported_eq_iff :
    reported entries = references entries ↔ entries.Pairwise fun a b => b.2.isString = true -> a.2.isString = true := by
  induction entries with
  | nil => exact ⟨fun _ => .nil, fun _ => rfl⟩
  | cons e entries ih =>
    obtain ⟨start, i⟩ := e
    rw [references_cons, List.pairwise_cons]
    cases i with
    | string q =>
      rw [reported_string, Scan.append_cancel_left]
      exact ih.trans ⟨fun later => ⟨fun _ _ _ => rfl, later⟩, fun both => both.2⟩
    | url u =>
      rw [reported_url, Scan.append_cancel_left, unlisted_eq_iff]
      constructor
      · intro none
        refine ⟨fun b mem string => ?_, List.pairwise_of_forall_mem_list fun a _ b mem string => ?_⟩ <;>
          simp [none b mem] at string
      · intro both b mem
        exact Bool.eq_false_iff.mpr fun string => nomatch both.1 b mem string

theorem scan_text (i : Import) (start : Nat) (rest : List Char) :
    Scan.scanFrom false start (i.text ++ rest) =
      unlisted [(start, i)] ++ Scan.scanFrom false (start + size i.text) rest := by
  cases i with
  | string q => exact q.scan_text false start rest
  | url u => exact u.scan_text start rest

end Import

-- An entry of a list with what stands around it.
structure Listed where
  before : List Blank
  entry : Import
  after : List Blank

namespace Listed

def text (i : Listed) : List Char :=
  blanks i.before ++ i.entry.text ++ blanks i.after

def behind (more : List Listed) : List Char :=
  more.flatMap fun i => ',' :: i.text

def placed (start : Nat) : List Listed -> List (Nat × Import)
  | [] => []
  | i :: more => (start + size (blanks i.before), i.entry) :: placed (start + size (i.text ++ [','])) more

theorem map_placed (start : Nat) (more : List Listed) : (placed start more).map Prod.snd = more.map entry := by
  induction more generalizing start with
  | nil => rfl
  | cons i more ih => rw [placed, List.map_cons, List.map_cons, ih]

theorem scan_behind (more : List Listed) (start : Nat) (rest : List Char) :
    Scan.scanFrom false start (behind more ++ rest) =
      Import.unlisted (placed (start + size [',']) more) ++ Scan.scanFrom false (start + size (behind more)) rest := by
  induction more generalizing start with
  | nil => rfl
  | cons i more ih =>
    have whole : behind (i :: more) ++ rest =
        ',' :: (blanks i.before ++ (i.entry.text ++ (blanks i.after ++ (behind more ++ rest)))) := by
      simp [behind, text]
    have noUrl (rest : List Char) : Token.urlTokens? (',' :: rest) = none :=
      Token.urlTokens?_eq_none (by decide) (by decide) rest
    have noIdent : isIdent ',' = false := by decide
    rw [placed, Import.unlisted_cons, Scan.append_assoc, whole,
      Scan.scanFrom_char (by decide) (by decide) (by decide) (fun _ => noUrl _), noIdent, scan_blanks,
      i.entry.scan_text, scan_blanks, ih]
    have first : start + size [','] + size (blanks i.before) + size i.entry.text + size (blanks i.after) =
        start + size [','] + size i.text := by
      simp [text, Nat.add_assoc]
    have next : start + size [','] + size i.text + size [','] = start + size [','] + size (i.text ++ [',']) := by
      rw [size_append, Nat.add_assoc]
    have last : start + size [','] + size i.text + size (behind more) = start + size (behind (i :: more)) := by
      simp [behind, Nat.add_assoc]
    rw [first, next, last]

-- What is reported of the list of an `@import` that starts at the byte `start`, and of the text
-- behind it.
def scanList (start : Nat) (text : List Char) : Scan :=
  Scan.ofTokens start (Token.ruleTokens true text).1 ++
    Scan.scanFrom false (start + size (Token.source (Token.ruleTokens true text).1)) (Token.ruleTokens true text).2

variable (before after : List Blank) (start : Nat)

-- The rule leaves the list where a `url(...)` stands.
theorem scanList_url (u : UrlString) (more : List Listed) (rest : List Char) :
    scanList start (blanks before ++ u.text ++ blanks after ++ (behind more ++ ';' :: rest)) =
      Import.reported ((start + size (blanks before), .url u) ::
          placed (start + size (blanks before ++ u.text ++ blanks after ++ [','])) more) ++
        Scan.scanFrom false (start + size (blanks before ++ u.text ++ blanks after ++ behind more))
          (';' :: rest) := by
  have whole : blanks before ++ u.text ++ blanks after ++ (behind more ++ ';' :: rest) =
      blanks before ++ (u.text ++ (blanks after ++ (behind more ++ ';' :: rest))) := by
    simp
  obtain ⟨stops, none⟩ := u.unlisted (blanks after ++ (behind more ++ ';' :: rest))
  have left : Token.ruleTokens true (blanks before ++ (u.text ++ (blanks after ++ (behind more ++ ';' :: rest)))) =
      ([.plain (blanks before)], u.text ++ (blanks after ++ (behind more ++ ';' :: rest))) := by
    apply Token.ruleTokens_none _ none
    rw [gap_blanks, stops, List.append_nil]
  rw [whole, scanList, left, u.scan_text, scan_blanks, scan_behind, Import.reported_url]
  simp only [Scan.ofTokens, Token.plain, Token.source_cons, Token.source_nil, List.append_nil, Scan.empty_append,
    Scan.append_assoc, size_append, Nat.add_assoc]
  rfl

theorem scanList_last (q : Quoted) (rest : List Char) :
    scanList start (blanks before ++ q.text ++ blanks after ++ ';' :: rest) =
      Import.references [(start + size (blanks before), .string q)] ++
        Scan.scanFrom false (start + size (blanks before ++ q.text ++ blanks after)) (';' :: rest) := by
  let item : Item := { before, specifier := q, after }
  have last : true = true -> (gap .space (blanks after ++ ';' :: rest)).2.head? ≠ some ',' := by
    intro _
    rw [item.gap_after (by decide) (by decide)]
    simp
  have read : Token.ruleTokens true (item.text ++ ';' :: rest) = _ :=
    Token.ruleTokens_last (item.gap_text (';' :: rest)) (q.specifier?_eq true _) last
  have whole : item.text = blanks before ++ q.text ++ blanks after := rfl
  have behind_ : start + size (Token.source [.plain (blanks before), { text := q.text, kind := .specifier q.body true }]) +
      size (blanks after) = start + size item.text := by
    simp [whole, Nat.add_assoc]
  rw [← whole, scanList, read, scan_blanks, Scan.ofTokens_plain, ← behind_]
  rfl

theorem scanList_more (q : Quoted) (rest : List Char) :
    scanList start (blanks before ++ q.text ++ blanks after ++ ',' :: rest) =
      Import.references [(start + size (blanks before), .string q)] ++
        scanList (start + size (blanks before ++ q.text ++ blanks after ++ [','])) rest := by
  let item : Item := { before, specifier := q, after }
  have comma := item.gap_after (c := ',') (by decide) (by decide) rest
  have read : Token.ruleTokens true (item.text ++ ',' :: rest) = _ :=
    Token.ruleTokens_more (item.gap_text (',' :: rest)) (q.specifier?_eq true _) comma
  have whole : item.text = blanks before ++ q.text ++ blanks after := rfl
  have next : start + size (blanks before) + size q.text + size (blanks after ++ [',']) =
      start + size (item.text ++ [',']) := by
    simp [whole, Nat.add_assoc]
  have last (tokens : List Token) : start + size (Token.source (.plain (blanks before) ::
      { text := q.text, kind := .specifier q.body true } :: .plain (blanks after ++ [',']) :: tokens)) =
        start + size (item.text ++ [',']) + size (Token.source tokens) := by
    simp [whole, Nat.add_assoc]
  rw [← whole, scanList, read, scanList, last, Scan.ofTokens_plain, Scan.ofTokens_cons, Scan.ofTokens_plain,
    Scan.append_assoc, ← next]
  rfl

theorem scanList_eq (i : Listed) (more : List Listed) (start : Nat) (rest : List Char) :
    scanList start (i.text ++ (behind more ++ ';' :: rest)) =
      Import.reported (placed start (i :: more)) ++
        Scan.scanFrom false (start + size (i.text ++ behind more)) (';' :: rest) := by
  induction more generalizing i start with
  | nil =>
    obtain ⟨before, q | u, after⟩ := i
    · have read := scanList_last before after start q rest
      rw [behind, List.flatMap_nil, List.append_nil]
      exact read
    · exact scanList_url before after start u [] rest
  | cons j more ih =>
    obtain ⟨before, q | u, after⟩ := i
    · have list : behind (j :: more) ++ ';' :: rest = ',' :: (j.text ++ (behind more ++ ';' :: rest)) := by
        simp [behind]
      have written : ({ before, entry := .string q, after } : Listed).text =
          blanks before ++ q.text ++ blanks after := rfl
      have last : start + size (blanks before ++ q.text ++ blanks after ++ [',']) + size (j.text ++ behind more) =
          start + size (blanks before ++ q.text ++ blanks after ++ behind (j :: more)) := by
        simp [behind, Nat.add_assoc]
      rw [list, written, placed, Import.reported_string, written, ← last, Scan.append_assoc, ← ih]
      exact scanList_more before after start q _
    · exact scanList_url before after start u (j :: more) rest

end Listed

structure ImportRule where
  first : Listed
  more : List Listed
  apart : first.before ≠ []

namespace ImportRule

def name : List Char :=
  "import".toList

variable (r : ImportRule)

def text : List Char :=
  '@' :: name ++ r.first.text ++ Listed.behind r.more ++ [';']

def listed : List Listed :=
  r.first :: r.more

def entriesAt (start : Nat) : List (Nat × Import) :=
  Listed.placed (start + size ('@' :: name)) r.listed

theorem scan_text (afterIdent : Bool) (start : Nat) (rest : List Char) :
    Scan.scanFrom afterIdent start (r.text ++ rest) =
      Import.reported (r.entriesAt start) ++ Scan.scanFrom false (start + size r.text) rest := by
  have whole : r.text ++ rest = '@' :: (name ++ (r.first.text ++ (Listed.behind r.more ++ ';' :: rest))) := by
    simp [text]
  have noIdent : ((r.first.text ++ (Listed.behind r.more ++ ';' :: rest)).head?.map isIdent).getD false = false := by
    obtain ⟨b, before, same⟩ := List.exists_cons_of_ne_nil r.apart
    rw [Listed.text, same, blanks, List.flatMap_cons, List.append_assoc, List.append_assoc, List.append_assoc]
    exact b.apart_text _
  have alone : rule? name = some (name, true, []) := rfl
  have reads : Token.Reads afterIdent _ _ := .rule (rule?_take alone noIdent)
  have list := Listed.scanList_eq r.first r.more (start + size ('@' :: name)) rest
  have noUrl : Token.urlTokens? (';' :: rest) = none := Token.urlTokens?_eq_none (by decide) (by decide) rest
  have last : start + size ('@' :: name) + size (r.first.text ++ Listed.behind r.more) + size [';'] =
      start + size r.text := by
    simp [text, Nat.add_assoc]
  rw [Scan.scanFrom_char (by decide) (by decide) (by decide) (fun _ => noUrl), last] at list
  rw [whole, Scan.scanFrom_step reads, Scan.ofTokens_plain, Token.source_cons, size_append, ← Nat.add_assoc]
  exact list

/-- Of an `@import`, every `url(...)` is found, and the strings in front of the first one. That is all of the list
exactly when no string stands behind a `url(...)`. -/
theorem scan_importRule :
    Scan.ofText (String.ofList r.text) = Import.reported (r.entriesAt 0) ∧
      (Scan.ofText (String.ofList r.text) = Import.references (r.entriesAt 0) ↔
        r.listed.Pairwise fun i j => j.entry.isString = true -> i.entry.isString = true) := by
  have found := r.scan_text false 0 []
  rw [List.append_nil, Scan.scanFrom_nil, Scan.append_empty] at found
  have whole : Scan.ofText (String.ofList r.text) = Import.reported (r.entriesAt 0) := by
    rw [Scan.ofText, String.toList_ofList]
    exact found
  -- The order of the entries does not depend on their places.
  let inOrder (a b : Import) : Prop := b.isString = true -> a.isString = true
  have order := calc
    (r.entriesAt 0).Pairwise (fun a b => inOrder a.2 b.2)
        ↔ ((r.entriesAt 0).map Prod.snd).Pairwise inOrder := (List.pairwise_map (f := Prod.snd) (R := inOrder)).symm
    _ ↔ (r.listed.map Listed.entry).Pairwise inOrder := by rw [entriesAt, Listed.map_placed]
    _ ↔ r.listed.Pairwise (fun i j => inOrder i.entry j.entry) := List.pairwise_map
  rw [whole]
  exact ⟨rfl, Import.reported_eq_iff.trans order⟩

-- A string behind a `url(...)`.
def themed : ImportRule where
  first := {
    before := [.space ' ' (by decide)]
    entry := .url {
      opening := ['u', 'r', 'l', '(']
      isOpening := by decide
      before := []
      blankBefore := by simp
      quote := '"'
      isQuote := by decide
      letters := [.plain 'a' (by decide)]
      after := []
      blankAfter := by simp }
    after := [] }
  more := [{
    before := [.space ' ' (by decide)]
    entry := .string { quote := '\'', body := ['b'], isQuote := by decide, plain := by simp }
    after := [] }]
  apart := by simp

theorem scan_importRule_themed :
    themed.text = "@import url(\"a\"), 'b';".toList ∧
      (Import.references (themed.entriesAt 0)).specifiers =
        [{ span := { start := 18, stop := 21 }, value := "b", fromImport := true }] ∧
          (Scan.ofText "@import url(\"a\"), 'b';").specifiers = [] := by
  refine ⟨by decide, by decide, by decide +kernel⟩

end ImportRule

end Fragment

end StylesheetImports
