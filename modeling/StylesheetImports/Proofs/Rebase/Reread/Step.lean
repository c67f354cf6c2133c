import StylesheetImports.Proofs.Rebase.Reread.Argument
import StylesheetImports.Proofs.Rebase.Reread.Rule

set_option autoImplicit false

namespace StylesheetImports

open Lexeme

namespace Rebaser

section

variable (r : Rebaser) (fileDir : Path)

def readsBackFrom (afterIdent : Bool) : List Char -> Bool
  | [] => true
  | c :: rest =>
    (afterIdent || r.urlReadsBack fileDir (c :: rest)) &&
      readsBackFrom (Token.step afterIdent c rest).afterIdent (Token.step afterIdent c rest).rest
termination_by text => text.length
decreasing_by exact Token.length_step_lt afterIdent c rest

/-- Whether a stylesheet in `fileDir` is read back once it is rebased. -/
def readsBack (text : String) : Bool :=
  r.readsBackFrom fileDir false text.toList

end

variable {r : Rebaser} {fileDir : Path}

theorem readsBackFrom_eq {afterIdent : Bool} {text : List Char} {s : Token.Step}
    (reads : Token.Reads afterIdent text s) :
    r.readsBackFrom fileDir afterIdent text =
      ((afterIdent || r.urlReadsBack fileDir text) && r.readsBackFrom fileDir s.afterIdent s.rest) := by
  cases text with
  | nil => exact absurd rfl reads.ne_nil
  | cons c rest => rw [readsBackFrom, reads.step_eq]

theorem shed_step (r : Rebaser) (fileDir : Path) {afterIdent : Bool} {text : List Char} {s : Token.Step}
    (reads : Token.Reads afterIdent text s) :
    (∀ t ∈ s.tokens, r.shed fileDir t = []) ∨
      ∃ opening arg closing, s.tokens = [.plain opening, arg, .plain closing] := by
  cases reads with
  | rule named =>
    refine .inl fun t ht => ?_
    rcases List.mem_cons.mp ht with rfl | ht
    · exact shed_plain _
    · exact shed_of_mem_ruleTokens t ht
  | url apart read =>
    obtain ⟨_, _, _, _, arg, closing, rfl, _⟩ := Token.exists_of_urlTokens? read
    exact .inr ⟨_, arg, closing, rfl⟩
  | _ => exact .inl (by simp)

theorem rereadFrom_step {afterIdent : Bool} {text : List Char} {s : Token.Step}
    (reads : Token.Reads afterIdent text s) (later : List Token) :
    r.rereadFrom fileDir [] (s.tokens ++ later) =
      r.rereadFrom fileDir [] s.tokens ++ r.rereadFrom fileDir [] later := by
  rcases shed_step r fileDir reads with kept | ⟨opening, arg, closing, same⟩
  · rw [rereadFrom_append kept, rereadFrom_eq_map kept]
  · rw [same]
    simp [rereadFrom]

-- The blanks that an argument sheds join plain text, so they matter to no property that plain text has.
theorem forall_mem_rereadFrom {motive : Token -> Prop} (plain : ∀ text, motive (.plain text))
    (afterIdent : Bool) (text : List Char) :
    (∀ t ∈ r.rereadFrom fileDir [] (Token.tokensFrom afterIdent text), motive t) ↔
      ∀ t ∈ Token.tokensFrom afterIdent text, motive (r.reread fileDir t) := by
  induction afterIdent, text using Token.tokensFrom_induction with
  | nil => simp [Token.tokensFrom, rereadFrom]
  | step afterIdent text s reads ih =>
    have here : (∀ t ∈ r.rereadFrom fileDir [] s.tokens, motive t) ↔
        ∀ t ∈ s.tokens, motive (r.reread fileDir t) := by
      rcases shed_step r fileDir reads with kept | ⟨opening, arg, closing, same⟩
      · simp [rereadFrom_eq_map kept]
      · simp [same, rereadFrom_url, plain]
    rw [reads.tokensFrom_eq, rereadFrom_step reads]
    simp only [List.mem_append, or_imp, forall_and, here, ih]

theorem reads_again {afterIdent : Bool} {text : List Char} {s : Token.Step}
    (reads : Token.Reads afterIdent text s) (back : (afterIdent || r.urlReadsBack fileDir text) = true) :
    Token.Reads afterIdent (r.rewrittenFrom fileDir afterIdent text)
      { tokens := r.rereadFrom fileDir [] s.tokens
        rest := r.rewrittenFrom fileDir s.afterIdent s.rest
        afterIdent := s.afterIdent } := by
  rw [rewrittenFrom_eq reads]
  cases reads with
  | @comment rest taken =>
    -- The comment is kept, and what follows it starts as it did.
    have alike : Alike (gap .space ('/' :: rest)).2
        (r.rewrittenFrom fileDir false (gap .space ('/' :: rest)).2) := alike_rewritten _ _
    have again := alike.gap_append rfl
    obtain ⟨c, body, taken_eq⟩ := List.exists_cons_of_ne_nil taken
    have slash : c = '/' := by
      have whole := gap_append .space ('/' :: rest)
      rw [taken_eq] at whole
      exact (List.cons.inj whole).1
    simp only [rewritten_cons, newText?_plain, Option.getD_none, Token.text_plain, rewritten_nil,
      List.append_nil, rereadFrom_plain, taken_eq, List.cons_append] at again ⊢
    subst slash
    have comment : Token.Reads afterIdent _ _ := .comment (by rw [again]; simp)
    rwa [again] at comment
  | @string c rest body after quote closed =>
    have again : Token.Reads afterIdent _ _ :=
      .string quote (quoted_take quote closed (r.rewrittenFrom fileDir false after))
    simpa using again
  | openString quote unclosed =>
    simpa [rewrittenFrom_nil] using Token.Reads.openString quote unclosed
  | @rule rest name after fromImport named =>
    have again : Token.Reads afterIdent _ _ :=
      .rule (rule?_take named (apart_ruleTokens r fileDir fromImport (rule?_apart named)))
    rw [ruleTokens_reread] at again
    rw [rereadFrom_eq_map]
    · simpa using again
    · intro t ht
      rcases List.mem_cons.mp ht with rfl | ht
      · exact shed_plain _
      · exact shed_of_mem_ruleTokens t ht
  | @url text more tokens apart read =>
    rw [apart, Bool.false_or] at back
    exact .url apart ((urlTokens?_reread read).mpr ⟨back, rfl⟩)
  | @char c rest noComment noQuote noRule noUrl =>
    -- Comments and rules are told from the start of the text; a `url(` is not, and `back` excludes it.
    have alike : Alike rest (r.rewrittenFrom fileDir (isIdent c) rest) := alike_rewritten _ _
    have noCommentAgain : c = '/' ->
        (gap .space (c :: r.rewrittenFrom fileDir (isIdent c) rest)).1 = [] := by
      intro slash
      have whole := gap_append .space (c :: rest)
      rw [noComment slash, List.nil_append] at whole
      rw [(Alike.cons c alike).gap_space (Prod.ext (noComment slash) whole)]
    have noUrlAgain : afterIdent = false ->
        Token.urlTokens? (c :: r.rewrittenFrom fileDir (isIdent c) rest) = none := by
      rintro rfl
      rw [Bool.false_or, urlReadsBack, noUrl rfl] at back
      simp only [rewrittenFrom_eq (.char noComment noQuote noRule noUrl)] at back
      simpa using back
    have noRuleAgain : c = '@' -> rule? (r.rewrittenFrom fileDir (isIdent c) rest) = none :=
      fun isRule => alike.rule?_eq_none (noRule isRule)
    have again := Token.Reads.char noCommentAgain noQuote noRuleAgain noUrlAgain
    simpa using again

theorem tokens_ne {text : List Char} {s s' : Token.Step} (reads : Token.Reads false text s)
    (again : Token.Reads false (r.rewrittenFrom fileDir false text) s')
    (back : r.urlReadsBack fileDir text = false) (later later' : List Token) :
    s'.tokens ++ later' ≠ r.rereadFrom fileDir [] s.tokens ++ later := by
  intro same
  have alike : Alike text (r.rewrittenFrom fileDir false text) := alike_rewritten _ _
  cases read : Token.urlTokens? text with
  | none =>
    -- The `url(` was one character and is a whole `url(...)` now.
    rw [urlReadsBack, read, Option.isNone_eq_false_iff, Option.isSome_iff_exists] at back
    obtain ⟨⟨tokens, more⟩, readAgain⟩ := back
    have opens := Token.isSome_urlOpening? readAgain
    obtain ⟨_, found⟩ | ⟨unread, _⟩ := again.of_opening opens
    · obtain ⟨opening, rest, first, _, long⟩ := Token.urlTokens?_ne_char found
      obtain ⟨_, found⟩ | ⟨_, c, single⟩ := reads.of_opening (alike.symm.isSome_urlOpening? opens)
      · rw [read] at found
        simp at found
      · rw [first, single, rereadFrom_plain] at same
        exact long c (congrArg Token.text (List.cons.inj same).1)
    · rw [readAgain] at unread
      simp at unread
  | some found =>
    -- It is one character now, or a `url(...)` with another argument or another end.
    obtain ⟨tokens, more⟩ := found
    have opens := Token.isSome_urlOpening? read
    obtain ⟨more, read⟩ | ⟨unread, _⟩ := reads.of_opening opens
    · obtain ⟨opening, rest, first, length, long⟩ := Token.urlTokens?_ne_char read
      obtain ⟨after, found⟩ | ⟨_, c, single⟩ := again.of_opening (alike.isSome_urlOpening? opens)
      · obtain ⟨_, _, firstAgain, lengthAgain, _⟩ := Token.urlTokens?_ne_char found
        have lengths : s'.tokens.length = (r.rereadFrom fileDir [] s.tokens).length := by
          rw [length_rereadFrom, first, firstAgain, List.length_cons, List.length_cons, length,
            lengthAgain]
        rw [(List.append_inj same lengths).1, rewrittenFrom_eq reads] at found
        rw [((urlTokens?_reread read).mp found).1] at back
        exact absurd back (by decide)
      · rw [single, first, rereadFrom] at same
        exact long c (congrArg Token.text (List.cons.inj same).1).symm
    · rw [read] at unread
      simp at unread

theorem tokensFrom_rewritten (afterIdent : Bool) (text : List Char) :
    Token.tokensFrom afterIdent (r.rewrittenFrom fileDir afterIdent text) =
        r.rereadFrom fileDir [] (Token.tokensFrom afterIdent text) ↔
      r.readsBackFrom fileDir afterIdent text = true := by
  induction afterIdent, text using Token.tokensFrom_induction with
  | nil afterIdent => simp [rewrittenFrom_nil, Token.tokensFrom, rereadFrom, readsBackFrom]
  | step afterIdent text s reads ih =>
    rw [readsBackFrom_eq reads, reads.tokensFrom_eq, rereadFrom_step reads]
    cases back : afterIdent || r.urlReadsBack fileDir text with
    | true => rw [(reads_again reads back).tokensFrom_eq, List.append_cancel_left_eq, ih, Bool.true_and]
    | false =>
      obtain ⟨rfl, back⟩ := Bool.or_eq_false_iff.mp back
      have some : r.rewrittenFrom fileDir false text ≠ [] := by
        intro none
        have alike : Alike text (r.rewrittenFrom fileDir false text) := alike_rewritten _ _
        exact reads.ne_nil (none ▸ alike).symm.eq_nil
      obtain ⟨s', again⟩ := Token.exists_reads false some
      rw [again.tokensFrom_eq]
      simp [tokens_ne reads again back]

end Rebaser

end StylesheetImports
