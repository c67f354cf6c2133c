import StylesheetImports.Proofs.Rebase.Reread.Token

set_option autoImplicit false

namespace StylesheetImports

open Lexeme

namespace Reference

-- How many `#\x7b` are open behind a text when `braces` are open before it.
def openBraces : Nat -> List Char -> Nat
  | braces, [] => braces
  | braces, '#' :: '\x7b' :: rest => openBraces (braces + 1) rest
  | braces, c :: rest => openBraces (if c = '\x7d' then braces - 1 else braces) rest

end Reference

namespace Rebaser

/-- Whether what stands where a `url(` begins is read back: the parenthesis of a new argument is neither on
another line nor inside braces that the argument opens, and what is no `url(...)` does not become one. -/
def urlReadsBack (r : Rebaser) (fileDir : Path) (text : List Char) : Bool :=
  match Token.urlTokens? text with
  | some ([_, arg, closing], _) =>
    match r.newText? fileDir arg with
    | some new => !closing.text.contains '\n' && Reference.openBraces 0 (unescape new) == 0
    | none => true
  | some _ => true
  | none => (Token.urlTokens? (r.rewrittenFrom fileDir false text)).isNone

variable {r : Rebaser} {fileDir : Path}

theorem bareArgument_escape (braces : Nat) (text : List Char) {rest : List Char}
    (apart : rest.head? ≠ some '\x7b') :
    bareArgument { braces, parens := 0 } (Reference.escape text ++ rest) =
      (bareArgument { braces := Reference.openBraces braces text, parens := 0 } rest).map
        fun (arg, after) => (Reference.escape text ++ arg, after) := by
  -- Along the text with the braces that are open: outside of braces every character that counts is escaped,
  -- and inside of them only the closing brace counts, which is never escaped.
  induction braces, text using Reference.openBraces.induct with
  | case1 braces => simp [Reference.escape, Reference.openBraces]
  | case2 braces text ih =>
    have plain : Reference.escape ('#' :: '\x7b' :: text) = '#' :: '\x7b' :: Reference.escape text := by
      simp [Reference.escape, show Reference.needsEscape '#' = false by decide,
        show Reference.needsEscape '\x7b' = false by decide]
    rw [plain, List.cons_append, List.cons_append, bareArgument, ih, Reference.openBraces]
    simp [Function.comp_def]
  | case3 braces c text noOpen ih =>
    rw [Reference.escape]
    split
    next special =>
      have noClose : c ≠ '\x7d' := by
        rintro rfl
        exact absurd special (by decide)
      rw [List.cons_append, List.cons_append, bareArgument, Reference.openBraces.eq_3 _ _ _ noOpen]
      simp only [noClose, ↓reduceIte] at ih ⊢
      rw [ih]
      simp [Function.comp_def]
    next plain =>
      have noEscape : ∀ d more, c = '\\' -> Reference.escape text ++ rest = d :: more -> False := by
        rintro d more rfl _
        exact plain (by decide)
      have noOpen' : ∀ more, c = '#' -> Reference.escape text ++ rest = '\x7b' :: more -> False := by
        intro more hc hmore
        cases text with
        | nil =>
          rw [Reference.escape, List.nil_append] at hmore
          exact apart (by rw [hmore]; rfl)
        | cons d text =>
          rw [Reference.escape] at hmore
          split at hmore
          next => simp at hmore
          next =>
            simp only [List.cons_append, List.cons.injEq] at hmore
            exact noOpen text hc (by rw [hmore.1])
      have next_ : ({ braces, parens := 0 } : Depth).next c =
          .goOn { braces := if c = '\x7d' then braces - 1 else braces, parens := 0 } := by
        have noEnd : c ≠ '(' ∧ c ≠ ')' ∧ c ≠ '\n' := by
          refine ⟨?_, ?_, ?_⟩ <;> rintro rfl <;> exact plain (by decide)
        cases braces with
        | zero => simp [Depth.next, noEnd]
        | succ braces => simp [Depth.next]
      rw [List.cons_append, bareArgument.eq_4 _ _ _ noEscape noOpen', next_,
        Reference.openBraces.eq_3 _ _ _ noOpen]
      simp only [ih]
      simp [Function.comp_def]

theorem head_escape {relative inside : List Char} {c : Char} (same : Reference.escape relative = c :: inside) :
    isQuote c = false ∧ isSpace c = false := by
  cases relative with
  | nil => simp [Reference.escape] at same
  | cons d relative =>
    rw [Reference.escape] at same
    split at same
    next =>
      rw [← (List.cons.inj same).1]
      decide
    next plain =>
      rw [← (List.cons.inj same).1]
      constructor <;> rw [Bool.eq_false_iff] <;> intro special
      · refine plain ?_
        rcases eq_of_isQuote special with rfl | rfl <;> decide
      · refine plain ?_
        rcases eq_of_isSpace special with rfl | rfl | rfl | rfl | rfl <;> decide

theorem bareArgument_new {relative blanks rest after : List Char} (blank : ∀ d ∈ blanks, isSpace d = true) :
    bareArgument { braces := 0, parens := 0 } (Reference.escape relative ++ (blanks ++ ')' :: rest)) =
        some (Reference.escape relative ++ blanks, after) ↔
      Reference.openBraces 0 relative = 0 ∧ '\n' ∉ blanks ∧ after = rest := by
  rw [bareArgument_escape 0 relative (head?_blanks blank rest), ← bareArgument_blanks blank]
  simp

theorem argument?_new {relative inside blanks rest after : List Char} {c : Char}
    (same : Reference.escape relative = c :: inside) (blank : ∀ d ∈ blanks, isSpace d = true) :
    Token.argument? c (inside ++ (blanks ++ ')' :: rest)) =
        some ({ text := trimEnd (c :: inside), kind := .argument (unescape (trimEnd (c :: inside))) },
          endBlanks (c :: inside) ++ (blanks ++ [')']), after) ↔
      Reference.openBraces 0 relative = 0 ∧ '\n' ∉ blanks ∧ after = rest := by
  rw [← bareArgument_new blank, same, Token.argument?, if_neg (by simp [(head_escape same).1]),
    List.cons_append]
  constructor
  · intro read
    split at read
    next => simp at read
    next arg more found =>
      simp only [Option.some.injEq, Prod.mk.injEq, Token.mk.injEq, ← List.append_assoc,
        List.append_cancel_right_eq] at read
      obtain ⟨⟨trimmed, _⟩, rest_, rfl⟩ := read
      have whole := trimEnd_append arg
      rw [trimmed, rest_, ← List.append_assoc, trimEnd_append] at whole
      rw [found, ← whole, List.cons_append]
  · intro read
    rw [read]
    simp only [trimEnd_append_blanks _ blank, endBlanks_append_blanks _ blank,
      List.append_assoc]

theorem urlTokens?_reread {text more rest after : List Char} {tokens : List Token}
    (read : Token.urlTokens? text = some (tokens, more)) :
    Token.urlTokens? (r.rewritten fileDir tokens ++ rest) = some (r.rereadFrom fileDir [] tokens, after) ↔
      r.urlReadsBack fileDir text = true ∧ after = rest := by
  obtain ⟨opening, before, c, inside, arg, closing, rfl, opens, blank, stop, found⟩ :=
    Token.exists_of_urlTokens? read
  obtain ⟨⟨value, kind, _⟩, blanks, rfl, closed⟩ := Token.argument?_shape found
  rw [urlReadsBack, read, rereadFrom_url]
  cases edited : r.newText? fileDir arg with
  | none =>
    -- The argument stays, and it is read alike whatever follows its parenthesis.
    have whole := Token.argument?_append found
    have head : ∃ inside', arg.text ++ (blanks ++ [')'] ++ rest) = c :: inside' := by
      cases closed_ : arg.text ++ (blanks ++ [')']) with
      | nil => simp at closed_
      | cons d taken =>
        rw [← List.append_assoc, closed_, List.cons_append] at whole
        refine ⟨taken ++ rest, ?_⟩
        rw [← List.append_assoc, closed_, ← (List.cons.inj whole).1, List.cons_append]
    obtain ⟨inside', same⟩ := head
    have again := Token.urlTokens?_of_opening (urlOpening?_take opens (before ++ c :: inside')) blank stop
    rw [Token.argument?_take found same, ← same] at again
    have text_eq : r.rewritten fileDir [.plain (opening ++ before), arg, .plain (blanks ++ [')'])] ++ rest =
        opening ++ (before ++ (arg.text ++ (blanks ++ [')'] ++ rest))) := by simp [edited]
    rw [text_eq, again]
    simp [edited, reread_of_none edited, shed_of_none edited, eq_comm]
  | some new =>
    -- The new argument is an escaped text, so it begins without a quote and without a blank.
    obtain ⟨relative, some, rfl⟩ := exists_escape_of_newText? kind edited
    obtain ⟨d, inside', same⟩ := List.exists_cons_of_ne_nil (Reference.escape_ne_nil some)
    have again := Token.urlTokens?_of_opening
      (urlOpening?_take opens (before ++ d :: (inside' ++ (blanks ++ ')' :: rest)))) blank (head_escape same).2
    have new := @argument?_new relative inside' blanks rest after d same closed
    have text_eq : r.rewritten fileDir [.plain (opening ++ before), arg, .plain (blanks ++ [')'])] ++ rest =
        opening ++ (before ++ d :: (inside' ++ (blanks ++ ')' :: rest))) := by simp [edited, same]
    have back : (!(blanks ++ [')']).contains '\n' && Reference.openBraces 0 relative == 0) = true ↔
        Reference.openBraces 0 relative = 0 ∧ '\n' ∉ blanks := by simp [and_comm]
    simp only [edited, reread_argument kind edited, shed, Option.getD_some, Reference.unescape_escape,
      Token.text_plain, back, and_assoc]
    rw [text_eq, again, same, ← new]
    cases Token.argument? d (inside' ++ (blanks ++ ')' :: rest)) with
    | none => simp
    | some found => simp [Token.plain, Prod.ext_iff, and_assoc]

end Rebaser

end StylesheetImports
