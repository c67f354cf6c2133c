import StylesheetImports.Proofs.Rebase.Reread.Argument

set_option autoImplicit false

namespace StylesheetImports

open Lexeme

theorem Lexeme.unescape_append_blanks (text : List Char) {blanks : List Char}
    (blank : ∀ c ∈ blanks, isSpace c = true) : unescape (text ++ blanks) = unescape text ++ blanks := by
  have kept : unescape blanks = blanks := unescape_plain fun mem => absurd (blank _ mem) (by decide)
  induction text using unescape.induct with
  | case1 => exact kept
  | case2 c rest ih => simp [unescape, ih]
  | case3 =>
    -- The backslash at the end takes a blank along, and is dropped without one.
    cases blanks with
    | nil => rfl
    | cons c blanks =>
      have later : unescape blanks = blanks := unescape_plain fun mem => absurd (blank _ (.tail c mem)) (by decide)
      simp [unescape, later]
  | case4 c rest noEscape noEnd ih =>
    have plain : c ≠ '\\' := by
      rintro rfl
      cases rest with
      | nil => exact noEnd rfl rfl
      | cons d rest => exact noEscape d rest rfl rfl
    rw [List.cons_append, unescape.eq_4 _ _ (fun _ _ same _ => plain same) (fun same _ => plain same), ih,
      unescape.eq_4 _ _ noEscape noEnd, List.cons_append]

namespace Reference

theorem interpolates_of_openBraces {braces : Nat} {text : List Char} (h : braces < openBraces braces text) :
    interpolates text = true := by
  induction braces, text using openBraces.induct with
  | case1 braces => simp [openBraces] at h
  | case2 braces rest ih => rfl
  | case3 braces c rest noOpen ih =>
    rw [openBraces.eq_3 _ _ _ noOpen] at h
    rw [interpolates.eq_3 _ _ noOpen]
    apply ih
    by_cases close : c = '\x7d'
    next =>
      simp only [close, ↓reduceIte] at h ⊢
      omega
    next => simpa [close] using h

theorem interpolates_append_blanks (text : List Char) {blanks : List Char}
    (blank : ∀ c ∈ blanks, isSpace c = true) : interpolates (text ++ blanks) = interpolates text := by
  have apart : blanks.head? ≠ some '\x7b' := fun head => absurd (blank _ (List.mem_of_head? head)) (by decide)
  have none : interpolates blanks = false := by
    clear apart
    induction blanks with
    | nil => rfl
    | cons c blanks ih =>
      have noHash : c ≠ '#' := by
        rintro rfl
        exact absurd (blank _ List.mem_cons_self) (by decide)
      rw [interpolates.eq_3 _ _ (fun _ same => absurd same noHash)]
      exact ih fun d mem => blank d (.tail c mem)
  rw [interpolates_append apart, none, Bool.or_false]

theorem trimEnd_eq_escape {relative arg rest more : List Char}
    (read : bareArgument { braces := 0, parens := 0 } (escape relative ++ (endBlanks arg ++ ')' :: rest)) =
      some (arg, more))
    (plain : interpolates (unescape (trimEnd arg)) = false) : trimEnd arg = escape relative := by
  have blank : ∀ c ∈ endBlanks arg, isSpace c = true := fun c => isSpace_of_mem_endBlanks
  rw [Rebaser.bareArgument_escape 0 relative (head?_blanks blank rest), Option.map_eq_some_iff] at read
  obtain ⟨⟨taken, after⟩, read, whole⟩ := read
  obtain ⟨whole, -⟩ := Prod.mk.inj whole
  have closed : openBraces 0 relative = 0 := by
    by_contra opened
    have signs := interpolates_append_left (interpolates_of_openBraces (Nat.pos_of_ne_zero opened)) (unescape taken)
    rw [← unescape_escape_append, whole, ← trimEnd_append arg, unescape_append_blanks _ blank,
      interpolates_append_blanks _ blank, plain] at signs
    contradiction
  have line : '\n' ∉ endBlanks arg := by
    intro line
    rw [closed, bareArgument_line blank line] at read
    contradiction
  rw [closed, (bareArgument_blanks blank).mpr ⟨rfl, line, rfl⟩, Option.some.injEq, Prod.mk.injEq] at read
  rw [← read.1] at whole
  exact List.append_cancel_right ((trimEnd_append arg).trans whole.symm)

end Reference

namespace Rebaser

variable {r : Rebaser} {fileDir : Path}

theorem ne_of_new_specifier {fromImport : Bool} {listed after new : List Char} {t : Token}
    (read : Token.specifier? fromImport listed = some (t, after)) (edited : r.newText? fileDir t = some new)
    (rest : List Char) : new ++ rest ≠ listed := by
  intro same
  obtain ⟨value, kind, _⟩ := Token.specifier?_shape read
  have written : new = (packed fileDir value).inQuotes.text := by
    simp [(newText?_specifier kind edited).2, PackedSpecifier.inQuotes, Fragment.Quoted.text]
  have again := (packed fileDir value).inQuotes.specifier?_eq fromImport rest
  rw [← written, same, read, Option.some.injEq, Prod.mk.injEq] at again
  -- The packed specifier would be the specifier itself.
  have kinds := congrArg Token.kind again.1
  rw [kind] at kinds
  have longer := (packed fileDir value).length_lt_encode
  simp only [packed, String.toList_ofList] at longer
  simp only [Token.Kind.specifier.injEq, PackedSpecifier.inQuotes, packed] at kinds
  exact absurd (congrArg List.length kinds.1) (Nat.ne_of_lt longer)

theorem ne_of_new_argument {c : Char} {inside closing more new : List Char} {t : Token}
    (read : Token.argument? c inside = some (t, closing, more)) (edited : r.newText? fileDir t = some new)
    (rest : List Char) : new ++ (closing ++ rest) ≠ c :: inside := by
  intro same
  obtain ⟨⟨value, kind, _⟩, _⟩ := Token.argument?_shape read
  obtain ⟨relative, some, rfl⟩ := exists_escape_of_newText? kind edited
  obtain ⟨rebased, _, change⟩ := newText?_argument kind edited
  obtain ⟨d, inside', first⟩ := List.exists_cons_of_ne_nil (Reference.escape_ne_nil some)
  have here : d = c := by
    rw [first, List.cons_append, List.cons.injEq] at same
    exact same.1
  -- A new argument begins without a quote, so the argument was written bare.
  rw [Token.argument?, if_neg (by rw [← here, (head_escape first).1]; decide)] at read
  split at read
  next => simp at read
  next arg after bare =>
    simp only [Option.some.injEq, Prod.mk.injEq] at read
    obtain ⟨rfl, rfl, rfl⟩ := read
    have plain : Reference.interpolates (unescape (trimEnd arg)) = false := by
      have kept := (Reference.rebase?_eq_some rebased).1
      simp only [Reference.isSkipped, Bool.or_eq_false_iff] at kept
      rw [Token.Kind.argument.inj kind]
      exact kept.1.2
    rw [← same, List.append_assoc, List.singleton_append] at bare
    exact change (Reference.trimEnd_eq_escape bare plain)

theorem stays_specifier {fromImport : Bool} {listed after rest : List Char} {t : Token}
    (read : Token.specifier? fromImport listed = some (t, after))
    (same : (r.newText? fileDir t).getD t.text ++ rest = listed) : r.newText? fileDir t = none ∧ rest = after := by
  cases edited : r.newText? fileDir t with
  | none =>
    rw [edited, ← (Token.specifier?_append read).1] at same
    exact ⟨rfl, List.append_cancel_left same⟩
  | some new =>
    rw [edited] at same
    exact absurd same (ne_of_new_specifier read edited rest)

theorem stays_argument {c : Char} {inside closing more rest : List Char} {t : Token}
    (read : Token.argument? c inside = some (t, closing, more))
    (same : (r.newText? fileDir t).getD t.text ++ (closing ++ rest) = c :: inside) : r.newText? fileDir t = none := by
  cases edited : r.newText? fileDir t with
  | none => rfl
  | some new =>
    rw [edited] at same
    exact absurd same (ne_of_new_argument read edited rest)

theorem stays_rule {fromImport : Bool} {cs rest : List Char}
    (same : r.rewritten fileDir (Token.ruleTokens fromImport cs).1 ++ rest = cs) :
    ∀ t ∈ (Token.ruleTokens fromImport cs).1, r.newText? fileDir t = none := by
  induction cs using Token.ruleTokens_induction fromImport with
  | none cs before listed blanks read => simp [Token.ruleTokens_none blanks read]
  | last cs before listed t after blanks read last =>
    have whole := append_of_gap blanks
    rw [Token.ruleTokens_last blanks read last] at same ⊢
    have there : (r.newText? fileDir t).getD t.text ++ rest = listed := by
      rw [← whole] at same
      simpa using same
    simpa using (stays_specifier read there).1
  | more cs before listed t after between later blanks read comma list ih =>
    subst list
    have whole := append_of_gap blanks
    have behind := append_of_gap comma
    rw [Token.ruleTokens_more blanks read comma] at same ⊢
    have there : (r.newText? fileDir t).getD t.text ++
        (between ++ ',' :: (r.rewritten fileDir (Token.ruleTokens true later).1 ++ rest)) = listed := by
      rw [← whole] at same
      simpa using same
    obtain ⟨stays, same⟩ := stays_specifier read there
    rw [← behind] at same
    have tail := ih (List.cons.inj (List.append_cancel_left same)).2
    simpa [stays] using tail

theorem rewritten_of_stays {tokens : List Token} (stays : ∀ t ∈ tokens, r.newText? fileDir t = none) :
    r.rewritten fileDir tokens = Token.source tokens := by
  induction tokens with
  | nil => rfl
  | cons t tokens ih =>
    rw [rewritten_cons, stays t List.mem_cons_self, ih fun u mem => stays u (.tail t mem)]
    rfl

theorem stays_step {afterIdent : Bool} {text rest : List Char} {s : Token.Step}
    (reads : Token.Reads afterIdent text s) (same : r.rewritten fileDir s.tokens ++ rest = text) :
    ∀ t ∈ s.tokens, r.newText? fileDir t = none := by
  cases reads with
  | @rule text name after fromImport named =>
    have listed : r.rewritten fileDir (Token.ruleTokens fromImport after).1 ++ rest = after := by
      rw [← rule?_append named] at same
      simpa using same
    simpa using stays_rule listed
  | @url text more tokens apart read =>
    obtain ⟨opening, before, c, inside, arg, closing, rfl, opens, blank, stop, argument⟩ :=
      Token.exists_of_urlTokens? read
    have there : (r.newText? fileDir arg).getD arg.text ++ (closing ++ rest) = c :: inside := by
      rw [← (urlOpening?_append opens).1] at same
      simpa using same
    simpa using stays_argument argument there
  | _ => simp

theorem stays_of_rewrittenFrom {afterIdent : Bool} {text : List Char}
    (same : r.rewrittenFrom fileDir afterIdent text = text) :
    ∀ t ∈ Token.tokensFrom afterIdent text, r.newText? fileDir t = none := by
  -- Along the steps: what a step takes stays, so the text behind it is the same as well.
  induction afterIdent, text using Token.tokensFrom_induction with
  | nil => simp [Token.tokensFrom]
  | step afterIdent text s reads ih =>
    rw [rewrittenFrom_eq reads] at same
    have stays := stays_step reads same
    rw [rewritten_of_stays stays, ← reads.source_eq] at same
    rw [reads.tokensFrom_eq]
    intro t mem
    exact (List.mem_append.mp mem).elim (stays t) (ih (List.append_cancel_left same) t)

/-- Nothing is reported as replaced just when the stylesheet is the same. -/
theorem replacements_rebase_eq_nil_iff (r : Rebaser) (text : String) (fileDir : Path) :
    (r.rebase text fileDir).2.replacements = [] ↔ (r.rebase text fileDir).1 = text := by
  obtain ⟨content, count⟩ := rebase_eq_rewritten r text fileDir
  rw [← List.length_eq_zero_iff, ← OffsetMap.length, count, List.length_eq_zero_iff, tokenEdits_eq_nil_iff,
    ← rebase_eq_self_iff]
  constructor
  · intro same
    rw [same]
  · intro same
    rw [same] at content
    exact (rebase_eq_self_iff r text fileDir).mpr (stays_of_rewrittenFrom content.symm)

end Rebaser

end StylesheetImports
