import StylesheetImports.Proofs.Stylesheet.Lookahead

set_option autoImplicit false

namespace StylesheetImports

open Lexeme

namespace Token

section

variable {fromImport : Bool} {cs before listed after : List Char} {t : Token}

theorem ruleTokens_none (blanks : gap .space cs = (before, listed))
    (h : specifier? fromImport listed = none) : ruleTokens fromImport cs = ([plain before], listed) := by
  rw [ruleTokens, blanks]
  split
  next => rfl
  next read => simp [h] at read

theorem ruleTokens_last (blanks : gap .space cs = (before, listed))
    (h : specifier? fromImport listed = some (t, after))
    (last : fromImport = true -> (gap .space after).2.head? ≠ some ',') :
    ruleTokens fromImport cs = ([plain before, t], after) := by
  rw [ruleTokens, blanks]
  split
  next none => simp [h] at none
  next read =>
    rw [h, Option.some.injEq, Prod.mk.injEq] at read
    obtain ⟨rfl, rfl⟩ := read
    split
    next list =>
      split
      next comma => exact absurd (by rw [comma]; rfl) (last list)
      next => rfl
    next => rfl

theorem ruleTokens_more {between more : List Char} (blanks : gap .space cs = (before, listed))
    (h : specifier? true listed = some (t, after)) (comma : gap .space after = (between, ',' :: more)) :
    ruleTokens true cs =
      (plain before :: t :: plain (between ++ [',']) :: (ruleTokens true more).1,
        (ruleTokens true more).2) := by
  rw [ruleTokens, blanks]
  split
  next none => simp [h] at none
  next read =>
    rw [h, Option.some.injEq, Prod.mk.injEq] at read
    obtain ⟨rfl, rfl⟩ := read
    rw [if_pos rfl]
    split
    next again =>
      rw [comma, List.cons.injEq] at again
      rw [again.2, comma]
    next none => exact absurd (congrArg Prod.snd comma) (none _)

end

-- Induction along the list of a rule, with the three equations above as its cases.
theorem ruleTokens_induction (fromImport : Bool) {motive : List Char -> Prop}
    (none : ∀ cs before listed, gap .space cs = (before, listed) ->
      specifier? fromImport listed = none -> motive cs)
    (last : ∀ cs before listed t after, gap .space cs = (before, listed) ->
      specifier? fromImport listed = some (t, after) ->
      (fromImport = true -> (gap .space after).2.head? ≠ some ',') -> motive cs)
    (more : ∀ cs before listed t after between rest, gap .space cs = (before, listed) ->
      specifier? true listed = some (t, after) -> gap .space after = (between, ',' :: rest) ->
      fromImport = true -> motive rest -> motive cs)
    (cs : List Char) : motive cs := by
  induction cs using ruleTokens.induct fromImport with
  | case1 cs read => exact none cs _ _ rfl read
  | case2 cs t after read list rest comma ih =>
    exact more cs _ _ t after _ rest rfl (list ▸ read) (Prod.ext rfl comma) list ih
  | case3 cs t after read list noComma =>
    refine last cs _ _ t after rfl read fun _ head => ?_
    obtain ⟨rest, comma⟩ := List.head?_eq_some_iff.mp head
    exact noComma rest comma
  | case4 cs t after read single => exact last cs _ _ t after rfl read fun list => absurd list single

theorem exists_of_mem_ruleTokens {fromImport : Bool} {cs : List Char} {t : Token}
    (h : t ∈ (ruleTokens fromImport cs).1) :
    (∃ text, t = plain text) ∨ ∃ listed after, specifier? fromImport listed = some (t, after) := by
  induction cs using ruleTokens_induction fromImport with
  | none cs before listed blanks read =>
    rw [ruleTokens_none blanks read, List.mem_singleton] at h
    exact .inl ⟨before, h⟩
  | last cs before listed u after blanks read last =>
    simp only [ruleTokens_last blanks read last, List.mem_cons, List.not_mem_nil, or_false] at h
    rcases h with rfl | rfl
    · exact .inl ⟨before, rfl⟩
    · exact .inr ⟨listed, after, read⟩
  | more cs before listed u after between rest blanks read comma list ih =>
    subst list
    simp only [ruleTokens_more blanks read comma, List.mem_cons] at h
    rcases h with rfl | rfl | rfl | h
    · exact .inl ⟨before, rfl⟩
    · exact .inr ⟨listed, after, read⟩
    · exact .inl ⟨between ++ [','], rfl⟩
    · exact ih h

/-- What stands at the head of a text, and the step it makes. -/
inductive Reads (afterIdent : Bool) : List Char -> Step -> Prop where
  | comment {rest : List Char} (taken : (gap .space ('/' :: rest)).1 ≠ []) :
      Reads afterIdent ('/' :: rest)
        { tokens := [plain (gap .space ('/' :: rest)).1]
          rest := (gap .space ('/' :: rest)).2
          afterIdent := false }
  | string {c : Char} {rest body after : List Char} (quote : isQuote c = true)
      (closed : quoted c rest = some (body, after)) :
      Reads afterIdent (c :: rest)
        { tokens := [plain (c :: body ++ [c])], rest := after, afterIdent := false }
  | openString {c : Char} {rest : List Char} (quote : isQuote c = true) (unclosed : quoted c rest = none) :
      Reads afterIdent (c :: rest) { tokens := [plain (c :: rest)], rest := [], afterIdent := false }
  | rule {rest name after : List Char} {fromImport : Bool}
      (named : rule? rest = some (name, fromImport, after)) :
      Reads afterIdent ('@' :: rest)
        { tokens := plain ('@' :: name) :: (ruleTokens fromImport after).1
          rest := (ruleTokens fromImport after).2
          afterIdent := false }
  | url {text more : List Char} {tokens : List Token} (apart : afterIdent = false)
      (read : urlTokens? text = some (tokens, more)) :
      Reads afterIdent text { tokens, rest := more, afterIdent := false }
  | char {c : Char} {rest : List Char} (noComment : c = '/' -> (gap .space (c :: rest)).1 = [])
      (noQuote : isQuote c = false) (noRule : c = '@' -> rule? rest = none)
      (noUrl : afterIdent = false -> urlTokens? (c :: rest) = none) :
      Reads afterIdent (c :: rest) { tokens := [plain [c]], rest, afterIdent := isIdent c }

theorem urlStep_reads {afterIdent : Bool} {c : Char} {rest : List Char}
    (noComment : c = '/' -> (gap .space (c :: rest)).1 = []) (noQuote : isQuote c = false)
    (noRule : c = '@' -> rule? rest = none) : Reads afterIdent (c :: rest) (urlStep afterIdent c rest) := by
  unfold urlStep
  split
  next read =>
    split at read
    next => simp at read
    next apart => exact .url (by simpa using apart) read
  next unread =>
    refine .char noComment noQuote noRule fun apart => ?_
    rwa [apart] at unread

theorem gap_slash_eq_nil {rest : List Char} (noBlock : ∀ more, rest ≠ '*' :: more)
    (noLine : ∀ more, rest ≠ '/' :: more) : (gap .space ('/' :: rest)).1 = [] := by
  rw [gap.eq_4 _ _ (fun more _ same => noBlock more same) (fun more _ same => noLine more same)]
  rfl

theorem step_reads (afterIdent : Bool) (c : Char) (rest : List Char) :
    Reads afterIdent (c :: rest) (step afterIdent c rest) := by
  unfold step
  split
  next more => exact .comment (by simp [gap])
  next more => exact .comment (by simp [gap])
  next noBlock noLine =>
    have noComment : c = '/' -> (gap .space (c :: rest)).1 = [] := by
      rintro rfl
      exact gap_slash_eq_nil (fun more same => noBlock more rfl same)
        (fun more same => noLine more rfl same)
    split
    next quote =>
      split
      next closed => exact .string quote closed
      next unclosed => exact .openString quote unclosed
    next noQuote =>
      have noQuote : isQuote c = false := by simpa using noQuote
      split
      next isRule =>
        subst isRule
        split
        next named => exact .rule named
        next noRule => exact urlStep_reads noComment noQuote fun _ => noRule
      next noRule => exact urlStep_reads noComment noQuote fun isRule => absurd isRule noRule

theorem not_comment_of_gap_eq_nil {c : Char} {rest : List Char} (h : c = '/' -> (gap .space (c :: rest)).1 = []) :
    (∀ more, c = '/' -> rest = '*' :: more -> False) ∧ ∀ more, c = '/' -> rest = '/' :: more -> False := by
  constructor <;> rintro more rfl rfl <;> simp [gap] at h

theorem step_of_isQuote {afterIdent : Bool} {c : Char} {rest : List Char} (quote : isQuote c = true) :
    step afterIdent c rest =
      match quoted c rest with
      | some (body, after) => { tokens := [plain (c :: body ++ [c])], rest := after, afterIdent := false }
      | none => { tokens := [plain (c :: rest)], rest := [], afterIdent := false } := by
  have noSlash : c ≠ '/' := by
    rintro rfl
    exact absurd quote (by decide)
  rewrite [step.eq_3 _ _ _ (fun _ same => absurd same noSlash) (fun _ same => absurd same noSlash),
    if_pos quote]
  cases quoted c rest <;> rfl

theorem letter_of_urlOpening? {c : Char} {rest : List Char} (h : (urlOpening? (c :: rest)).isSome = true) :
    c = 'u' ∨ c = 'U' := by
  unfold urlOpening? at h
  split at h
  next same =>
    rw [List.cons.injEq] at same
    split at h
    next letters =>
      simp only [Bool.and_eq_true, Bool.or_eq_true, decide_eq_true_eq] at letters
      rw [same.1]
      exact letters.1.1
    next => simp at h
  next => simp at h

theorem isSome_urlOpening? {text more : List Char} {tokens : List Token}
    (h : urlTokens? text = some (tokens, more)) : (urlOpening? text).isSome = true := by
  obtain ⟨_, _, _, _, _, _, _, opens, _⟩ := exists_of_urlTokens? h
  rw [opens]
  rfl

theorem urlTokens?_eq_none {c : Char} (noSmall : c ≠ 'u') (noLarge : c ≠ 'U') (rest : List Char) :
    urlTokens? (c :: rest) = none := by
  rw [Option.eq_none_iff_forall_ne_some]
  exact fun read found => (letter_of_urlOpening? (isSome_urlOpening? found)).elim noSmall noLarge

theorem Reads.step_eq {afterIdent : Bool} {c : Char} {rest : List Char} {s : Step}
    (h : Reads afterIdent (c :: rest) s) : step afterIdent c rest = s := by
  cases h with
  | comment taken =>
    by_cases block : ∃ more, rest = '*' :: more
    · obtain ⟨more, rfl⟩ := block
      rfl
    · by_cases line : ∃ more, rest = '/' :: more
      · obtain ⟨more, rfl⟩ := line
        rfl
      · have none := gap_slash_eq_nil (fun more same => block ⟨more, same⟩)
          (fun more same => line ⟨more, same⟩)
        exact absurd none taken
  | string quote closed => rw [step_of_isQuote quote, closed]
  | openString quote unclosed => rw [step_of_isQuote quote, unclosed]
  | rule named =>
    rw [step.eq_3 _ _ _ (fun _ same => absurd same (by decide)) (fun _ same => absurd same (by decide)),
      if_neg (by decide), if_pos rfl, named]
  | url apart read =>
    -- The letter that opens the `url(` rules out every other step.
    have letter := letter_of_urlOpening? (isSome_urlOpening? read)
    have noSlash : c ≠ '/' := by rcases letter with rfl | rfl <;> decide
    have noQuote : ¬isQuote c = true := by rcases letter with rfl | rfl <;> decide
    have noRule : c ≠ '@' := by rcases letter with rfl | rfl <;> decide
    rw [step.eq_3 _ _ _ (fun _ same => absurd same noSlash) (fun _ same => absurd same noSlash),
      if_neg noQuote, if_neg noRule, urlStep, apart, if_neg (by decide), read]
  | char noComment noQuote noRule noUrl =>
    obtain ⟨noBlock, noLine⟩ := not_comment_of_gap_eq_nil noComment
    have unread : (if afterIdent = true then none else urlTokens? (c :: rest)) = none := by
      split
      next => rfl
      next apart => exact noUrl (by simpa using apart)
    have single : urlStep afterIdent c rest = { tokens := [plain [c]], rest, afterIdent := isIdent c } := by
      rw [urlStep, unread]
    rw [step.eq_3 _ _ _ noBlock noLine, if_neg (by simp [noQuote]), single]
    split
    next isRule => rw [noRule isRule]
    next => rfl

theorem Reads.blank {afterIdent : Bool} {c : Char} {rest : List Char} (h : isSpace c = true) :
    Reads afterIdent (c :: rest) { tokens := [plain [c]], rest, afterIdent := false } := by
  have plain : c ≠ '/' ∧ isQuote c = false ∧ c ≠ '@' ∧ isIdent c = false ∧ c ≠ 'u' ∧ c ≠ 'U' := by
    rcases eq_of_isSpace h with rfl | rfl | rfl | rfl | rfl <;> decide
  obtain ⟨noSlash, noQuote, noRule, noIdent, noSmall, noCapital⟩ := plain
  rw [← noIdent]
  exact .char (fun slash => absurd slash noSlash) noQuote (fun isRule => absurd isRule noRule) fun _ =>
    urlTokens?_eq_none noSmall noCapital rest

theorem Reads.ne_nil {afterIdent : Bool} {text : List Char} {s : Step} (h : Reads afterIdent text s) :
    text ≠ [] := by
  cases h with
  | url apart read =>
    rintro rfl
    simp [urlTokens?, urlOpening?] at read
  | _ => simp

theorem Reads.source_eq {afterIdent : Bool} {text : List Char} {s : Step} (h : Reads afterIdent text s) :
    source s.tokens ++ s.rest = text := by
  cases text with
  | nil => exact absurd rfl h.ne_nil
  | cons c rest => rw [← h.step_eq, step_source]

theorem exists_reads (afterIdent : Bool) {text : List Char} (h : text ≠ []) :
    ∃ s, Reads afterIdent text s := by
  obtain ⟨c, rest, rfl⟩ := List.exists_cons_of_ne_nil h
  exact ⟨_, step_reads afterIdent c rest⟩

theorem Reads.tokensFrom_eq {afterIdent : Bool} {text : List Char} {s : Step} (h : Reads afterIdent text s) :
    tokensFrom afterIdent text = s.tokens ++ tokensFrom s.afterIdent s.rest := by
  cases text with
  | nil => exact absurd rfl h.ne_nil
  | cons c rest => rw [tokensFrom, h.step_eq]

-- Induction along the steps that read a text.
theorem tokensFrom_induction {motive : Bool -> List Char -> Prop} (nil : ∀ afterIdent, motive afterIdent [])
    (step : ∀ afterIdent text s, Reads afterIdent text s -> motive s.afterIdent s.rest ->
      motive afterIdent text)
    (afterIdent : Bool) (text : List Char) : motive afterIdent text := by
  induction afterIdent, text using tokensFrom.induct with
  | case1 afterIdent => exact nil afterIdent
  | case2 afterIdent c rest ih => exact step afterIdent (c :: rest) _ (step_reads afterIdent c rest) ih

theorem Reads.exists_of_mem {afterIdent : Bool} {text : List Char} {s : Step} (h : Reads afterIdent text s)
    {t : Token} (mem : t ∈ s.tokens) :
    (∃ text, t = plain text) ∨ (∃ c rest closing more, argument? c rest = some (t, closing, more)) ∨
      ∃ fromImport listed after, specifier? fromImport listed = some (t, after) := by
  cases h with
  | rule named =>
    rcases List.mem_cons.mp mem with same | listed
    · exact .inl ⟨_, same⟩
    · rcases exists_of_mem_ruleTokens listed with plain_ | ⟨listed, after, read⟩
      · exact .inl plain_
      · exact .inr (.inr ⟨_, listed, after, read⟩)
  | url apart read =>
    obtain ⟨opening, before, c, rest, arg, closing, rfl, _, _, _, argument⟩ := exists_of_urlTokens? read
    simp only [List.mem_cons, List.not_mem_nil, or_false] at mem
    rcases mem with rfl | rfl | rfl
    · exact .inl ⟨_, rfl⟩
    · exact .inr (.inl ⟨c, rest, closing, _, argument⟩)
    · exact .inl ⟨_, rfl⟩
  | _ => exact .inl ⟨_, List.mem_singleton.mp mem⟩

theorem exists_of_mem_tokensFrom {afterIdent : Bool} {text : List Char} {t : Token}
    (h : t ∈ tokensFrom afterIdent text) :
    (∃ text, t = plain text) ∨ (∃ c rest closing more, argument? c rest = some (t, closing, more)) ∨
      ∃ fromImport listed after, specifier? fromImport listed = some (t, after) := by
  induction afterIdent, text using tokensFrom_induction with
  | nil => simp [tokensFrom] at h
  | step afterIdent text s reads ih =>
    rw [reads.tokensFrom_eq, List.mem_append] at h
    exact h.elim reads.exists_of_mem ih

theorem text_of_specifier {afterIdent : Bool} {text value : List Char} {t : Token} {fromImport : Bool}
    (h : t ∈ tokensFrom afterIdent text) (kind : t.kind = .specifier value fromImport) :
    t.text = value ∨ ∃ quote, isQuote quote = true ∧ t.text = quote :: value ++ [quote] := by
  rcases exists_of_mem_tokensFrom h with ⟨text, rfl⟩ | ⟨c, rest, closing, more, read⟩ | ⟨_, listed, after, read⟩
  · simp [plain] at kind
  · obtain ⟨⟨value, argument, _⟩, _⟩ := argument?_shape read
    simp [argument] at kind
  · obtain ⟨written, kind_, text⟩ := specifier?_shape read
    rw [kind_, Kind.specifier.injEq] at kind
    rwa [← kind.1]

theorem Reads.of_opening {text : List Char} {s : Step} (reads : Reads false text s)
    (opens : (urlOpening? text).isSome = true) :
    (∃ more, urlTokens? text = some (s.tokens, more)) ∨
      urlTokens? text = none ∧ ∃ c, s.tokens = [plain [c]] := by
  cases reads with
  | comment => exact absurd (letter_of_urlOpening? opens) (by decide)
  | string quote =>
    rcases letter_of_urlOpening? opens with rfl | rfl <;> exact absurd quote (by decide)
  | openString quote =>
    rcases letter_of_urlOpening? opens with rfl | rfl <;> exact absurd quote (by decide)
  | rule => exact absurd (letter_of_urlOpening? opens) (by decide)
  | url apart read => exact .inl ⟨_, read⟩
  | char _ _ _ noUrl => exact .inr ⟨noUrl rfl, _, rfl⟩

theorem urlTokens?_ne_char {text more : List Char} {tokens : List Token}
    (h : urlTokens? text = some (tokens, more)) :
    ∃ opening rest, tokens = plain opening :: rest ∧ rest.length = 2 ∧ ∀ c, opening ≠ [c] := by
  obtain ⟨opening, before, _, _, arg, closing, rfl, opens, _⟩ := exists_of_urlTokens? h
  refine ⟨opening ++ before, [arg, plain closing], rfl, rfl, ?_⟩
  unfold urlOpening? at opens
  split at opens
  next =>
    split at opens
    next =>
      simp only [Option.some.injEq, Prod.mk.injEq] at opens
      rw [← opens.1]
      simp
    next => simp at opens
  next => simp at opens

end Token

end StylesheetImports
