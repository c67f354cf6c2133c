import StylesheetImports.Proofs.Stylesheet.ByteScan.Rounds

set_option autoImplicit false

namespace StylesheetImports

open Utf8 Lexeme

namespace Token

inductive Spaced : List Token -> Prop where
  | nil : Spaced []
  | plain (text : List Char) {tokens : List Token} (later : Spaced tokens) : Spaced (plain text :: tokens)
  | last (t : Token) : Spaced [t]
  | reference (t : Token) {text : List Char} {tokens : List Token} (some : text ≠ []) (later : Spaced tokens) :
      Spaced (t :: Token.plain text :: tokens)

def Opens (tokens : List Token) : Prop :=
  tokens = [] ∨ ∃ text more, tokens = plain text :: more ∧ text ≠ []

theorem Spaced.append {tokens later : List Token} (first : Spaced tokens) (opens : Opens later)
    (second : Spaced later) : Spaced (tokens ++ later) := by
  induction first with
  | nil => exact second
  | plain text _ ih => exact ih.plain text
  | last t =>
    -- What stands behind the last reference begins with text, which keeps it apart from the next one.
    rcases opens with rfl | ⟨text, more, rfl, some⟩
    · exact .last t
    · cases second with
      | plain _ later => exact .reference t some later
      | last => exact .reference t some .nil
      | reference _ some' later => exact .reference t some (later.plain _)
  | reference t some _ ih => exact .reference t some ih

theorem spaced_ruleTokens (fromImport : Bool) (cs : List Char) : Spaced (ruleTokens fromImport cs).1 := by
  induction cs using ruleTokens_induction fromImport with
  | none cs before listed blanks read =>
    rw [ruleTokens_none blanks read]
    exact .last _
  | last cs before listed t after blanks read last =>
    rw [ruleTokens_last blanks read last]
    exact (Spaced.last t).plain before
  | more cs before listed t after between rest blanks read comma list ih =>
    subst list
    rw [ruleTokens_more blanks read comma]
    exact (Spaced.reference t (by simp) ih).plain before

theorem Reads.spaced {afterIdent : Bool} {text : List Char} {s : Step} (reads : Reads afterIdent text s) :
    Opens s.tokens ∧ Spaced s.tokens := by
  cases reads with
  | comment taken => exact ⟨.inr ⟨_, [], rfl, taken⟩, .last _⟩
  | string => exact ⟨.inr ⟨_, [], rfl, by simp⟩, .last _⟩
  | openString => exact ⟨.inr ⟨_, [], rfl, by simp⟩, .last _⟩
  | rule => exact ⟨.inr ⟨_, _, rfl, by simp⟩, (spaced_ruleTokens _ _).plain _⟩
  | url apart read =>
    obtain ⟨opening, before, c, inside, arg, closing, rfl, opens, _, _, argument⟩ := exists_of_urlTokens? read
    obtain ⟨_, blanks, rfl, _⟩ := argument?_shape argument
    have some := (urlOpening?_append opens).2
    exact ⟨.inr ⟨_, _, rfl, by simp [some]⟩, (Spaced.reference arg (by simp) .nil).plain _⟩
  | char => exact ⟨.inr ⟨_, [], rfl, by simp⟩, .last _⟩

theorem spaced_tokensFrom (afterIdent : Bool) (text : List Char) :
    Opens (tokensFrom afterIdent text) ∧ Spaced (tokensFrom afterIdent text) := by
  induction afterIdent, text using tokensFrom_induction with
  | nil afterIdent =>
    rw [tokensFrom]
    exact ⟨.inl rfl, .nil⟩
  | step afterIdent text s reads ih =>
    obtain ⟨opens, spaced⟩ := reads.spaced
    rw [reads.tokensFrom_eq]
    refine ⟨?_, spaced.append ih.1 ih.2⟩
    rcases opens with none | ⟨text, more, same, some⟩
    · rw [none]
      exact ih.1
    · rw [same]
      exact .inr ⟨text, _, rfl, some⟩

end Token

namespace Scan

def spans (s : Scan) : List Span :=
  s.arguments.map (·.span) ++ s.specifiers.map (·.span)

theorem mem_spans_cons {start : Nat} {t : Token} {tokens : List Token} {span : Span}
    (h : span ∈ (ofTokens start (t :: tokens)).spans) :
    span = { start, stop := start + size t.text } ∨ span ∈ (ofTokens (start + size t.text) tokens).spans := by
  rw [ofTokens] at h
  cases kind : t.kind with
  | plain =>
    rw [kind] at h
    exact .inr h
  | argument value =>
    simpa [spans, kind] using h
  | specifier value fromImport =>
    rw [kind] at h
    simp only [spans, List.map_cons, List.mem_append, List.mem_cons] at h ⊢
    rcases h with h | h | h
    · exact .inr (.inl h)
    · exact .inl h
    · exact .inr (.inr h)

theorem exists_of_mem_spans {start : Nat} {tokens : List Token} {span : Span}
    (h : span ∈ (ofTokens start tokens).spans) :
    ∃ left t right, tokens = left ++ t :: right ∧ span.start = start + size (Token.source left) ∧
      span.stop = span.start + size t.text := by
  induction tokens generalizing start with
  | nil => simp [ofTokens, empty, spans] at h
  | cons t tokens ih =>
    rcases mem_spans_cons h with rfl | later
    · exact ⟨[], t, tokens, rfl, rfl, rfl⟩
    · obtain ⟨left, u, right, rfl, first, last⟩ := ih later
      refine ⟨t :: left, u, right, rfl, ?_, last⟩
      rw [first, Token.source_cons, size_append, Nat.add_assoc]

theorem le_start {start : Nat} {tokens : List Token} {span : Span} (h : span ∈ (ofTokens start tokens).spans) :
    start <= span.start := by
  obtain ⟨left, t, right, _, first, _⟩ := exists_of_mem_spans h
  omega

/-- No two references touch, and those of a kind are reported in the order of the text. -/
structure Apart (s : Scan) : Prop where
  arguments : s.arguments.Pairwise fun a b => a.span.stop < b.span.start
  specifiers : s.specifiers.Pairwise fun a b => a.span.stop < b.span.start
  between : ∀ a ∈ s.arguments, ∀ b ∈ s.specifiers, a.span.stop < b.span.start ∨ b.span.stop < a.span.start

theorem apart_empty : empty.Apart :=
  ⟨.nil, .nil, fun _ mem => by simp [empty] at mem⟩

theorem Apart.cons {start : Nat} {t : Token} {later : Scan} (apart : later.Apart)
    (behind : ∀ span ∈ later.spans, start + size t.text < span.start) {tokens : List Token}
    (same : ofTokens (start + size t.text) tokens = later) : (ofTokens start (t :: tokens)).Apart := by
  have arguments (a : Argument) (mem : a ∈ later.arguments) : start + size t.text < a.span.start :=
    behind a.span (List.mem_append_left _ (List.mem_map_of_mem mem))
  have specifiers (s : Specifier) (mem : s ∈ later.specifiers) : start + size t.text < s.span.start :=
    behind s.span (List.mem_append_right _ (List.mem_map_of_mem mem))
  simp only [ofTokens, same]
  cases t.kind with
  | plain => exact apart
  | argument value =>
    refine ⟨apart.arguments.cons arguments, apart.specifiers, ?_⟩
    rintro a mem s listed
    rcases List.mem_cons.mp mem with rfl | mem
    · exact .inl (specifiers s listed)
    · exact apart.between a mem s listed
  | specifier value fromImport =>
    refine ⟨apart.arguments, apart.specifiers.cons specifiers, ?_⟩
    rintro a mem s listed
    rcases List.mem_cons.mp listed with rfl | listed
    · exact .inr (arguments a mem)
    · exact apart.between a mem s listed

theorem apart_ofTokens {tokens : List Token} (spaced : Token.Spaced tokens) (start : Nat) :
    (ofTokens start tokens).Apart := by
  induction spaced generalizing start with
  | nil => exact apart_empty
  | plain text _ ih => exact ih _
  | last t =>
    apply apart_empty.cons
    · simp [spans, empty]
    · rfl
  | @reference t text tokens some _ ih =>
    -- The text behind the reference is not empty, so all that is reported later begins behind its end.
    apply (ih (start + size t.text + size text)).cons
    · intro span mem
      have := le_start mem
      have := ByteScan.size_pos text some
      omega
    · rfl

end Scan

namespace ByteScan

/-- A scan by positions ends without a fault in every text, with the references that its tokens tell. Each span lies in
the text, between characters, and no two of them touch. -/
theorem scan_sound (text : String) :
    scan text.toList = .ok (Scan.ofText text) ∧
      (∀ span ∈ (Scan.ofText text).spans, span.start <= span.stop ∧ span.stop <= size text.toList ∧
        IsBoundary text.toList span.start ∧ IsBoundary text.toList span.stop) ∧
      (Scan.ofText text).Apart := by
  refine ⟨scan_eq text.toList, ?_, ?_⟩
  · intro span mem
    obtain ⟨left, t, right, tokens, first, last⟩ := Scan.exists_of_mem_spans mem
    have source := Token.source_ofText text.toList
    rw [tokens, Token.source_append, Token.source_cons] at source
    have length := congrArg size source
    rw [size_append, size_append] at length
    rw [Nat.zero_add] at first
    refine ⟨by omega, by omega, ?_, ?_⟩
    · exact ⟨Token.source left, _, source.symm, first.symm⟩
    · refine ⟨Token.source left ++ t.text, Token.source right, ?_, ?_⟩
      · rw [List.append_assoc, source]
      · rw [last, first, size_append]
  · exact Scan.apart_ofTokens (Token.spaced_tokensFrom false text.toList).2 0

end ByteScan

end StylesheetImports
