import StylesheetImports.Proofs.Rebase.Reread.Token

set_option autoImplicit false

namespace StylesheetImports

open Lexeme

namespace Rebaser

variable {r : Rebaser} {fileDir : Path}

theorem alike_urlOpening? {cs opening inside : List Char} (h : urlOpening? cs = some (opening, inside))
    (rest rest' : List Char) : Alike (opening ++ rest) (opening ++ rest') := by
  unfold urlOpening? at h
  split at h
  next u r l _ =>
    split at h
    next =>
      simp only [Option.some.injEq, Prod.mk.injEq] at h
      obtain ⟨rfl, rfl⟩ := h
      have marked : Alike ('(' :: rest) ('(' :: rest') := .mark (by decide) rest rest'
      exact marked.append [u, r, l]
    next => simp at h
  next => simp at h

theorem alike_rewritten (afterIdent : Bool) (text : List Char) :
    Alike text (r.rewrittenFrom fileDir afterIdent text) := by
  induction afterIdent, text using Token.tokensFrom_induction with
  | nil afterIdent => simpa [rewrittenFrom_nil] using Alike.same []
  | step afterIdent text s reads ih =>
    rw [rewrittenFrom_eq reads]
    cases reads with
    | @comment rest taken =>
      have alike := ih.append (gap .space ('/' :: rest)).1
      rw [gap_append] at alike
      simpa using alike
    | @string c rest body after quote closed =>
      have alike := ih.append (c :: body ++ [c])
      rw [List.append_assoc, List.cons_append, List.singleton_append, quoted_append closed] at alike
      simpa using alike
    | openString => simpa [rewrittenFrom_nil] using Alike.same _
    | rule named => exact .mark (by decide) _ _
    | @url _ more _ apart read =>
      obtain ⟨opening, before, c, rest, arg, closing, rfl, opens, -⟩ := Token.exists_of_urlTokens? read
      -- The parenthesis of the opening is a mark, so the new argument need not be like the old one.
      have alike := alike_urlOpening? opens (before ++ c :: rest)
        (before ++ ((r.newText? fileDir arg).getD arg.text ++
          (closing ++ r.rewrittenFrom fileDir false more)))
      rw [(urlOpening?_append opens).1] at alike
      simpa using alike
    | char => exact .cons _ ih

theorem rewritten_openString {afterIdent : Bool} {c : Char} {rest : List Char} (quote : isQuote c = true)
    (unclosed : quoted c rest = none) :
    r.rewrittenFrom fileDir afterIdent (c :: rest) = c :: rest := by
  rw [rewrittenFrom_eq (.openString quote unclosed)]
  simp [rewrittenFrom_nil]

theorem rewritten_gap (text : List Char) :
    r.rewrittenFrom fileDir false text =
      (gap .space text).1 ++ r.rewrittenFrom fileDir false (gap .space text).2 := by
  induction text with
  | nil => simp [gap, rewrittenFrom_nil]
  | cons c rest ih =>
    by_cases slash : c = '/'
    · subst slash
      by_cases taken : (gap .space ('/' :: rest)).1 = []
      · have whole := gap_append .space ('/' :: rest)
        rw [taken, List.nil_append] at whole
        rw [taken, whole, List.nil_append]
      · rw [rewrittenFrom_eq (.comment taken)]
        simp
    · rw [gap_space_cons slash]
      split
      next blank =>
        rw [rewrittenFrom_eq (.blank blank), ih]
        rfl
      next => rfl

theorem gap_rewritten (text : List Char) :
    gap .space (r.rewrittenFrom fileDir false text) =
      ((gap .space text).1, r.rewrittenFrom fileDir false (gap .space text).2) := by
  rw [rewritten_gap, (alike_rewritten false (gap .space text).2).gap_append rfl]

theorem specifier?_reread (r : Rebaser) (fileDir : Path) {fromImport : Bool}
    {cs before listed after rest : List Char} {t : Token}
    (blanks : gap .space cs = (before, listed)) (h : Token.specifier? fromImport listed = some (t, after))
    (alike : Alike after rest) :
    gap .space (before ++ ((r.newText? fileDir t).getD t.text ++ rest)) =
        (before, (r.newText? fileDir t).getD t.text ++ rest) ∧
      Token.specifier? fromImport ((r.newText? fileDir t).getD t.text ++ rest) =
        some (r.reread fileDir t, rest) := by
  cases edited : r.newText? fileDir t with
  | none =>
    rw [reread_of_none edited, Option.getD_none]
    have same := alike.append t.text
    rw [(Token.specifier?_append h).1] at same
    exact ⟨same.gap_append blanks, Token.specifier?_take h alike⟩
  | some new =>
    obtain ⟨value, kind, _⟩ := Token.specifier?_shape h
    have left : listed ≠ [] := by
      rintro rfl
      simp [Token.specifier?] at h
    rw [reread_specifier kind edited, Option.getD_some, (newText?_specifier kind edited).2]
    constructor
    · exact gap_stop blanks left (by simp [gap, isSpace])
    · simp [Token.specifier?, isQuote, PackedSpecifier.quoted_encode]

theorem ruleTokens_reread (fromImport : Bool) (cs : List Char) :
    Token.ruleTokens fromImport (r.rewritten fileDir (Token.ruleTokens fromImport cs).1 ++
        r.rewrittenFrom fileDir false (Token.ruleTokens fromImport cs).2) =
      ((Token.ruleTokens fromImport cs).1.map (r.reread fileDir),
        r.rewrittenFrom fileDir false (Token.ruleTokens fromImport cs).2) := by
  induction cs using Token.ruleTokens_induction fromImport with
  | none cs before listed blanks read =>
    have alike : Alike listed (r.rewrittenFrom fileDir false listed) := alike_rewritten _ _
    -- Nothing is listed; an open string would close on a change behind it, but nothing behind it changes.
    have again := Token.specifier?_eq_none read alike fun c rest same quote unclosed => by
      rw [same, rewritten_openString quote unclosed]
    rw [Token.ruleTokens_none blanks read]
    simp [Token.ruleTokens_none (alike.gap_append blanks) again]
  | last cs before listed t after blanks read last =>
    have alike : Alike after (r.rewrittenFrom fileDir false after) := alike_rewritten _ _
    obtain ⟨blanksAgain, again⟩ := specifier?_reread r fileDir blanks read alike
    have lastAgain : fromImport = true ->
        (gap .space (r.rewrittenFrom fileDir false after)).2.head? ≠ some ',' := by
      intro list
      rw [gap_rewritten, (alike_rewritten false (gap .space after).2).head?]
      exact last list
    rw [Token.ruleTokens_last blanks read last]
    simp [Token.ruleTokens_last blanksAgain again lastAgain]
  | more cs before listed t after between rest blanks read comma list ih =>
    subst list
    have whole := append_of_gap comma
    -- The comma is a mark: whatever the rest of the list becomes, what stands before it is read alike.
    have alike : ∀ rest', Alike after (between ++ ',' :: rest') := by
      intro rest'
      rw [← whole]
      exact (Alike.mark (by decide) rest rest').append between
    have commaAgain : ∀ rest', gap .space (between ++ ',' :: rest') = (between, ',' :: rest') :=
      fun rest' => gap_stop comma (by simp) (by simp [gap, isSpace])
    rw [Token.ruleTokens_more blanks read comma]
    obtain ⟨blanksAgain, again⟩ := specifier?_reread r fileDir blanks read
      (alike (r.rewritten fileDir (Token.ruleTokens true rest).1 ++
        r.rewrittenFrom fileDir false (Token.ruleTokens true rest).2))
    have more := Token.ruleTokens_more blanksAgain again (commaAgain _)
    rw [ih] at more
    simpa using more

theorem shed_of_mem_ruleTokens {fromImport : Bool} {cs : List Char} :
    ∀ t ∈ (Token.ruleTokens fromImport cs).1, r.shed fileDir t = [] := by
  intro t ht
  rcases Token.exists_of_mem_ruleTokens ht with ⟨text, rfl⟩ | ⟨listed, after, read⟩
  · exact shed_plain text
  · obtain ⟨_, kind, _⟩ := Token.specifier?_shape read
    exact shed_specifier kind

theorem apart_specifier {fromImport : Bool} {cs before listed after : List Char} {t : Token}
    (blanks : gap .space cs = (before, listed))
    (read : Token.specifier? fromImport listed = some (t, after))
    (apart : (cs.head?.map isIdent).getD false = false) (rest : List Char) :
    ((before ++ ((r.newText? fileDir t).getD t.text ++ rest)).head?.map isIdent).getD false = false := by
  have whole := append_of_gap blanks
  -- The head is a blank, the first character of a specifier that stays, or the quote of a new one.
  cases before with
  | cons d before => simpa [← whole] using apart
  | nil =>
    cases edited : r.newText? fileDir t with
    | none =>
      obtain ⟨same, some⟩ := Token.specifier?_append read
      rw [List.nil_append, ← same] at whole
      obtain ⟨d, text, text_eq⟩ := List.exists_cons_of_ne_nil some
      simpa [← whole, text_eq] using apart
    | some new =>
      obtain ⟨value, kind, _⟩ := Token.specifier?_shape read
      rw [Option.getD_some, (newText?_specifier kind edited).2]
      rfl

theorem apart_ruleTokens (r : Rebaser) (fileDir : Path) (fromImport : Bool) {cs : List Char}
    (apart : (cs.head?.map isIdent).getD false = false) :
    ((r.rewritten fileDir (Token.ruleTokens fromImport cs).1 ++
      r.rewrittenFrom fileDir false (Token.ruleTokens fromImport cs).2).head?.map isIdent).getD false =
        false := by
  induction cs using Token.ruleTokens_induction fromImport with
  | none cs before listed blanks read =>
    have alike : Alike listed (r.rewrittenFrom fileDir false listed) := alike_rewritten _ _
    have whole := append_of_gap blanks
    rw [← whole, ← (alike.append before).head?] at apart
    rw [Token.ruleTokens_none blanks read]
    simpa using apart
  | last cs before listed t after blanks read last =>
    rw [Token.ruleTokens_last blanks read last]
    simpa using apart_specifier blanks read apart (r.rewrittenFrom fileDir false after)
  | more cs before listed t after between rest blanks read comma list _ =>
    subst list
    rw [Token.ruleTokens_more blanks read comma]
    simpa using apart_specifier blanks read apart (between ++ ',' :: (r.rewritten fileDir
      (Token.ruleTokens true rest).1 ++ r.rewrittenFrom fileDir false (Token.ruleTokens true rest).2))

end Rebaser

end StylesheetImports
