import StylesheetImports.Proofs.Stylesheet.Fragment
import StylesheetImports.Proofs.Stylesheet.Reading

set_option autoImplicit false

namespace StylesheetImports

open Utf8 Lexeme

namespace Scan

@[simp] theorem arguments_append (a b : Scan) : (a ++ b).arguments = a.arguments ++ b.arguments := rfl

@[simp] theorem specifiers_append (a b : Scan) : (a ++ b).specifiers = a.specifiers ++ b.specifiers := rfl

@[simp] theorem empty_append (s : Scan) : empty ++ s = s := rfl

@[simp] theorem append_empty (s : Scan) : s ++ empty = s :=
  congrArg₂ Scan.mk (List.append_nil _) (List.append_nil _)

@[simp] theorem append_assoc (a b c : Scan) : a ++ b ++ c = a ++ (b ++ c) :=
  congrArg₂ Scan.mk (List.append_assoc _ _ _) (List.append_assoc _ _ _)

theorem append_cancel_left {s a b : Scan} : s ++ a = s ++ b ↔ a = b := by
  constructor
  · intro same
    have arguments := congrArg Scan.arguments same
    have specifiers := congrArg Scan.specifiers same
    simp only [arguments_append, specifiers_append, List.append_cancel_left_eq] at arguments specifiers
    exact congrArg₂ Scan.mk arguments specifiers
  · rintro rfl
    rfl

theorem ofTokens_append (start : Nat) (a b : List Token) :
    ofTokens start (a ++ b) = ofTokens start a ++ ofTokens (start + size (Token.source a)) b := by
  induction a generalizing start with
  | nil => rfl
  | cons t a ih =>
    simp only [List.cons_append, ofTokens, ih, Token.source_cons, size_append, Nat.add_assoc]
    cases t.kind <;> rfl

theorem ofTokens_plain (start : Nat) (text : List Char) (tokens : List Token) :
    ofTokens start (.plain text :: tokens) = ofTokens (start + size text) tokens := rfl

theorem ofTokens_cons (start : Nat) (t : Token) (tokens : List Token) :
    ofTokens start (t :: tokens) = ofTokens start [t] ++ ofTokens (start + size t.text) tokens := by
  have parts := ofTokens_append start [t] tokens
  rwa [List.singleton_append, Token.source_cons, Token.source_nil, List.append_nil] at parts

theorem arguments_ruleTokens (fromImport : Bool) (cs : List Char) (start : Nat) :
    (ofTokens start (Token.ruleTokens fromImport cs).1).arguments = [] := by
  induction cs using Token.ruleTokens_induction fromImport generalizing start with
  | none cs before listed blanks read =>
    rw [Token.ruleTokens_none blanks read]
    rfl
  | last cs before listed t after blanks read last =>
    obtain ⟨value, kind, _⟩ := Token.specifier?_shape read
    rw [Token.ruleTokens_last blanks read last]
    simp [ofTokens, Token.plain, kind, empty]
  | more cs before listed t after between rest blanks read comma list ih =>
    subst list
    obtain ⟨value, kind, _⟩ := Token.specifier?_shape read
    rw [Token.ruleTokens_more blanks read comma]
    simp [ofTokens, Token.plain, kind, ih]

-- The references of a text that starts at the byte `start`, behind a character of a name or not.
def scanFrom (afterIdent : Bool) (start : Nat) (text : List Char) : Scan :=
  ofTokens start (Token.tokensFrom afterIdent text)

variable {afterIdent : Bool} {text rest : List Char}

@[simp] theorem scanFrom_nil (afterIdent : Bool) (start : Nat) : scanFrom afterIdent start [] = empty := by
  rw [scanFrom, Token.tokensFrom, ofTokens]

theorem scanFrom_step {s : Token.Step} (reads : Token.Reads afterIdent text s) (start : Nat) :
    scanFrom afterIdent start text =
      ofTokens start s.tokens ++ scanFrom s.afterIdent (start + size (Token.source s.tokens)) s.rest := by
  rw [scanFrom, reads.tokensFrom_eq, ofTokens_append]
  rfl

theorem scanFrom_plain {taken : List Char} {behind : Bool}
    (reads : Token.Reads afterIdent text { tokens := [.plain taken], rest, afterIdent := behind }) (start : Nat) :
    scanFrom afterIdent start text = scanFrom behind (start + size taken) rest := by
  rw [scanFrom_step reads]
  simp [ofTokens, Token.plain]

theorem scanFrom_char {c : Char} (noQuote : isQuote c = false) (noSlash : c ≠ '/') (noRule : c ≠ '@')
    (noUrl : afterIdent = false -> Token.urlTokens? (c :: rest) = none) (start : Nat) :
    scanFrom afterIdent start (c :: rest) = scanFrom (isIdent c) (start + size [c]) rest := by
  apply scanFrom_plain
  apply Token.Reads.char
  · exact fun slash => absurd slash noSlash
  · exact noQuote
  · exact fun rule => absurd rule noRule
  · exact noUrl

theorem scanFrom_gap (start : Nat) (text : List Char) :
    scanFrom false start text = scanFrom false (start + size (gap .space text).1) (gap .space text).2 := by
  induction text generalizing start with
  | nil => rfl
  | cons c text ih =>
    by_cases slash : c = '/'
    next =>
      subst slash
      by_cases none : (gap .space ('/' :: text)).1 = []
      next =>
        have whole := gap_append .space ('/' :: text)
        rw [none, List.nil_append] at whole
        rw [none, whole, size_nil, Nat.add_zero]
      next => exact scanFrom_plain (.comment none) start
    next =>
      rw [gap_space_cons slash]
      split
      next blank =>
        rw [scanFrom_plain (.blank blank), ih, size_cons, size_cons, size_nil, Nat.add_assoc, Nat.add_zero]
      next => rfl

end Scan

namespace Lexeme

def isUrlLetter (c : Char) : Bool :=
  c = 'u' || c = 'U' || c = 'r' || c = 'R' || c = 'l' || c = 'L'

def Calm (text : List Char) : Prop :=
  (text.dropWhile isUrlLetter).head? ≠ some '('

variable {c : Char} {rest : List Char}

theorem calm_nil : Calm [] := by simp [Calm]

theorem Calm.cons (calm : Calm rest) (noOpen : c ≠ '(') : Calm (c :: rest) := by
  unfold Calm
  rw [List.dropWhile_cons]
  split
  next => exact calm
  next => simpa using noOpen

theorem calm_cons (apart : isUrlLetter c = false) (noOpen : c ≠ '(') : Calm (c :: rest) := by
  simp [Calm, apart, noOpen]

theorem Calm.urlTokens?_eq_none {text : List Char} (calm : Calm text) : Token.urlTokens? text = none := by
  rw [Option.eq_none_iff_forall_ne_some]
  intro read found
  have opens := Token.isSome_urlOpening? found
  unfold urlOpening? at opens
  split at opens
  next =>
    split at opens
    next letters =>
      apply calm
      simp only [Bool.and_eq_true, Bool.or_eq_true, decide_eq_true_eq] at letters
      obtain ⟨⟨rfl | rfl, rfl | rfl⟩, rfl | rfl⟩ := letters <;> rfl
    next => simp at opens
  next => simp at opens

end Lexeme

/-- Of the text, a scan reports `found` of its place, whatever stands before it and whatever calm text behind it. -/
structure Passes (text : List Char) (found : Nat -> Scan) : Prop where
  calm : ∀ rest, Calm rest -> Calm (text ++ rest)
  scan : ∀ afterIdent start rest, Calm rest -> ∃ behind,
    Scan.scanFrom afterIdent start (text ++ rest) = found start ++ Scan.scanFrom behind (start + size text) rest

namespace Passes

variable {text more : List Char} {found later : Nat -> Scan}

theorem ofText (h : Passes text found) : Scan.ofText (String.ofList text) = found 0 := by
  obtain ⟨behind, whole⟩ := h.scan false 0 [] calm_nil
  rw [List.append_nil, Scan.scanFrom_nil, Scan.append_empty] at whole
  rw [Scan.ofText, String.toList_ofList]
  exact whole

theorem nil : Passes [] fun _ => .empty where
  calm := fun _ calm => calm
  scan := fun afterIdent _ _ _ => ⟨afterIdent, rfl⟩

theorem append (h : Passes text found) (h' : Passes more later) :
    Passes (text ++ more) fun start => found start ++ later (start + size text) where
  calm := by
    intro rest calm
    rw [List.append_assoc]
    exact h.calm _ (h'.calm rest calm)
  scan := by
    intro afterIdent start rest calm
    obtain ⟨between, first⟩ := h.scan afterIdent start (more ++ rest) (h'.calm rest calm)
    obtain ⟨behind, second⟩ := h'.scan between (start + size text) rest calm
    refine ⟨behind, ?_⟩
    rw [List.append_assoc, first, second, size_append, Scan.append_assoc, Nat.add_assoc]

theorem append_silent (h : Passes text fun _ => .empty) (h' : Passes more later) :
    Passes (text ++ more) fun start => later (start + size text) :=
  h.append h'

theorem flatMap {A : Type} {write : A -> List Char} (each : ∀ a, Passes (write a) fun _ => .empty) (parts : List A) :
    Passes (parts.flatMap write) fun _ => .empty := by
  induction parts with
  | nil => exact nil
  | cons a parts ih =>
    rw [List.flatMap_cons]
    exact (each a).append_silent ih

theorem char {c : Char} (noQuote : isQuote c = false) (noSlash : c ≠ '/') (noRule : c ≠ '@') (noOpen : c ≠ '(') :
    Passes [c] fun _ => .empty where
  calm := fun _ calm => calm.cons noOpen
  scan := by
    intro afterIdent start rest calm
    have noUrl := (calm.cons noOpen).urlTokens?_eq_none
    exact ⟨isIdent c, Scan.scanFrom_char noQuote noSlash noRule (fun _ => noUrl) start⟩

theorem space {c : Char} (blank : isSpace c = true) : Passes [c] fun _ => .empty := by
  apply char <;> rcases eq_of_isSpace blank with rfl | rfl | rfl | rfl | rfl <;> decide

end Passes

namespace Fragment

theorem passes_filler {text : List Char} (plain : ∀ c ∈ text, isQuote c = false ∧ c ≠ '/' ∧ c ≠ '@' ∧ c ≠ '(') :
    Passes text fun _ => .empty := by
  induction text with
  | nil => exact .nil
  | cons c text ih =>
    obtain ⟨⟨noQuote, noSlash, noRule, noOpen⟩, others⟩ := List.forall_mem_cons.mp plain
    exact (Passes.char noQuote noSlash noRule noOpen).append_silent (ih others)

theorem Quoted.scan_text (q : Quoted) (afterIdent : Bool) (start : Nat) (rest : List Char) :
    Scan.scanFrom afterIdent start (q.text ++ rest) = Scan.scanFrom false (start + size q.text) rest := by
  have closed := quoted_plain q.isQuote q.plain rest
  have reads : Token.Reads afterIdent _ _ := .string q.isQuote closed
  rw [Quoted.text, List.append_assoc, List.cons_append, List.singleton_append]
  exact Scan.scanFrom_plain reads start

theorem Quoted.passes (q : Quoted) : Passes q.text fun _ => .empty where
  calm := by
    intro rest _
    apply calm_cons <;> rcases eq_of_isQuote q.isQuote with same | same <;> rw [same] <;> decide
  scan := fun afterIdent start rest _ => ⟨false, q.scan_text afterIdent start rest⟩

theorem gap_block {body : List Char} (inside : ¬ ['*', '/'] <:+: body) (rest : List Char) :
    gap .block (body ++ '*' :: '/' :: rest) =
      (body ++ '*' :: '/' :: (gap .space rest).1, (gap .space rest).2) := by
  induction body with
  | nil => rfl
  | cons c body ih =>
    have later : ¬ ['*', '/'] <:+: body := fun found => inside (found.trans (List.suffix_cons c body).isInfix)
    -- What stands behind a star is the body or the star of the end.
    have goesOn : ∀ tail, c = '*' -> body ++ '*' :: '/' :: rest = '/' :: tail -> False := by
      rintro tail rfl head
      cases body with
      | nil => simp at head
      | cons d body =>
        rw [List.cons_append, List.cons.injEq] at head
        exact inside ⟨[], body, by rw [head.1]; rfl⟩
    rw [List.cons_append, gap.eq_6 _ _ goesOn, ih later]
    rfl

theorem gap_line {body : List Char} (inside : '\n' ∉ body) (rest : List Char) :
    gap .line (body ++ '\n' :: rest) = (body ++ '\n' :: (gap .space rest).1, (gap .space rest).2) := by
  induction body with
  | nil => simp [gap]
  | cons c body ih =>
    obtain ⟨here, later⟩ := List.ne_and_not_mem_of_not_mem_cons inside
    simp [gap, Ne.symm here, ih later]

theorem Comment.gap_text (c : Comment) (rest : List Char) :
    gap .space (c.text ++ rest) = (c.text ++ (gap .space rest).1, (gap .space rest).2) := by
  cases c with
  | block body inside => simp [Comment.text, gap, gap_block inside]
  | line body inside => simp [Comment.text, gap, gap_line inside]

theorem Comment.text_eq (c : Comment) : ∃ text, c.text = '/' :: text := by
  cases c <;> exact ⟨_, rfl⟩

theorem Comment.passes (c : Comment) : Passes c.text fun _ => .empty where
  calm := by
    intro rest _
    obtain ⟨text, same⟩ := c.text_eq
    rw [same]
    apply calm_cons <;> decide
  scan := by
    intro afterIdent start rest _
    refine ⟨false, ?_⟩
    have gap := c.gap_text rest
    obtain ⟨text, same⟩ := c.text_eq
    have taken : (Lexeme.gap .space ('/' :: (text ++ rest))).1 ≠ [] := by
      rw [← List.cons_append, ← same, gap, same]
      simp
    have reads : Token.Reads afterIdent _ _ := .comment taken
    rw [← List.cons_append, ← same, gap] at reads
    -- The comment is taken with the blanks behind it.
    rw [Scan.scanFrom_plain reads, size_append, ← Nat.add_assoc, ← Scan.scanFrom_gap]
    rfl

theorem Blank.passes (b : Blank) : Passes b.text fun _ => .empty := by
  cases b with
  | space c blank => exact .space blank
  | comment c => exact c.passes

theorem passes_blanks (between : List Blank) : Passes (blanks between) fun _ => .empty :=
  .flatMap Blank.passes between

theorem gap_blanks (between : List Blank) (rest : List Char) :
    gap .space (blanks between ++ rest) = (blanks between ++ (gap .space rest).1, (gap .space rest).2) := by
  induction between with
  | nil => rfl
  | cons b between ih =>
    rw [blanks, List.flatMap_cons, ← blanks, List.append_assoc, List.append_assoc]
    cases b with
    | space c blank =>
      rw [Blank.text, List.singleton_append, gap_space_cons (ne_slash_of_isSpace blank), if_pos blank, ih]
      rfl
    | comment c => rw [Blank.text, c.gap_text, ih]

theorem scan_blanks (between : List Blank) (start : Nat) (rest : List Char) :
    Scan.scanFrom false start (blanks between ++ rest) =
      Scan.scanFrom false (start + size (blanks between)) rest := by
  rw [Scan.scanFrom_gap start, Scan.scanFrom_gap (start + size (blanks between)), gap_blanks, size_append,
    Nat.add_assoc]

end Fragment

end StylesheetImports
