import StylesheetImports.Proofs.Stylesheet.ByteScan.Standing
import StylesheetImports.Proofs.Stylesheet.Passing

set_option autoImplicit false

namespace StylesheetImports

open Utf8 Lexeme

namespace ByteScan

variable {text rest : List Char} {i : Nat} {c : Char}

theorem At.spells_eq (h : At text i rest) {word : List Char} (ascii : ∀ c ∈ word, c.toNat < 0x80) :
    spells text word i = (word.isPrefixOf? rest).isSome := by
  induction word generalizing i rest with
  | nil => rfl
  | cons d word ih =>
    obtain ⟨low, later⟩ := List.forall_mem_cons.mp ascii
    cases rest with
    | nil => simp [spells, h.byte?_nil, List.isPrefixOf?]
    | cons c rest =>
      rw [isPrefixOf?_cons]
      by_cases same : d = c
      next =>
        subst same
        simp [spells, h.byte?_cons, lead_of_ascii low, ih (h.next_ascii low) later]
      next =>
        have other : lead c ≠ d := fun read => same ((lead_eq_iff low).mp read).symm
        simp [spells, h.byte?_cons, other, same]

theorem ascii_ruleNames : ∀ entry ∈ ruleNames, ∀ c ∈ entry.1, c.toNat < 0x80 := by
  have table : ruleNames.all (fun entry => entry.1.all fun c => decide (c.toNat < 0x80)) = true := by decide
  simpa using table

theorem size_ascii {word : List Char} (ascii : ∀ c ∈ word, c.toNat < 0x80) : size word = word.length := by
  induction word with
  | nil => rfl
  | cons c word ih =>
    obtain ⟨low, later⟩ := List.forall_mem_cons.mp ascii
    rw [size_cons, utf8Size_ascii low, ih later, List.length_cons]
    omega

theorem At.ident_eq (h : At text i rest) :
    ((byte? text i).map isIdent).getD false = (rest.head?.map isIdent).getD false := by
  cases rest with
  | nil => rw [h.byte?_nil]; rfl
  | cons c rest => rw [h.byte?_cons, Option.map_some, test_lead Blind.ident]; rfl

theorem At.rule?_along (h : At text i rest) (names : List (List Char × Bool))
    (ascii : ∀ entry ∈ names, ∀ c ∈ entry.1, c.toNat < 0x80) :
    (names.find? fun (name, _) => spells text name i && !((byte? text (i + name.length)).map isIdent).getD false) =
      (names.findSome? fun (name, fromImport) => (name.isPrefixOf? rest).bind fun after =>
        if (after.head?.map isIdent).getD false then none else some (name, fromImport, after)).map
          fun (name, fromImport, _) => (name, fromImport) := by
  induction names with
  | nil => rfl
  | cons entry names ih =>
    obtain ⟨name, fromImport⟩ := entry
    obtain ⟨low, later⟩ := List.forall_mem_cons.mp ascii
    rw [List.find?_cons, List.findSome?_cons, ih later]
    simp only [h.spells_eq low]
    cases found : name.isPrefixOf? rest with
    | none => rfl
    | some after =>
      have whole := append_of_isPrefixOf? found
      have there : At text (i + name.length) after := by
        rw [← whole] at h
        rw [← size_ascii low]
        exact h.behind
      simp only [Option.isSome_some, Bool.true_and, Option.bind_some, there.ident_eq]
      cases (after.head?.map isIdent).getD false <;> rfl

theorem At.rule?_eq (h : At text i rest) :
    rule? text i = (Lexeme.rule? rest).map fun (name, fromImport, _) => (name, fromImport) :=
  h.rule?_along ruleNames ascii_ruleNames

theorem isSome_urlOpening?_iff :
    (urlOpening? rest).isSome = true ↔ ∃ u r l inside, rest = u :: r :: l :: '(' :: inside ∧
      (u = 'u' ∨ u = 'U') ∧ (r = 'r' ∨ r = 'R') ∧ (l = 'l' ∨ l = 'L') := by
  unfold urlOpening?
  constructor
  · intro opens
    split at opens
    next =>
      split at opens
      next letters =>
        simp only [Bool.and_eq_true, Bool.or_eq_true, decide_eq_true_eq] at letters
        exact ⟨_, _, _, _, rfl, letters.1.1, letters.1.2, letters.2⟩
      next => simp at opens
    next => simp at opens
  · rintro ⟨u, r, l, inside, rfl, isU, isR, isL⟩
    simp [isU, isR, isL]

theorem At.exists_letter (h : At text i rest) {small large : Char} (low : small.toNat < 0x80)
    (low' : large.toNat < 0x80) :
    byte? text i = some small ∨ byte? text i = some large ↔
      ∃ c more, rest = c :: more ∧ (c = small ∨ c = large) ∧ At text (i + 1) more := by
  constructor
  · rintro (read | read)
    · obtain ⟨more, same, there⟩ := h.exists_cons low read
      exact ⟨_, more, same, .inl rfl, there⟩
    · obtain ⟨more, same, there⟩ := h.exists_cons low' read
      exact ⟨_, more, same, .inr rfl, there⟩
  · rintro ⟨c, more, rfl, rfl | rfl, _⟩
    · exact .inl ((h.byte?_eq_some low).mpr rfl)
    · exact .inr ((h.byte?_eq_some low').mpr rfl)

theorem At.opensUrl_eq (h : At text i rest) : opensUrl text i = (urlOpening? rest).isSome := by
  rw [Bool.eq_iff_iff, isSome_urlOpening?_iff]
  simp only [opensUrl, Bool.and_eq_true, Bool.or_eq_true, decide_eq_true_eq]
  constructor
  · rintro ⟨⟨⟨first, second⟩, third⟩, fourth⟩
    obtain ⟨u, more, rfl, isU, atR⟩ := (h.exists_letter (by decide) (by decide)).mp first
    obtain ⟨r, more, rfl, isR, atL⟩ := (atR.exists_letter (by decide) (by decide)).mp second
    obtain ⟨l, more, rfl, isL, atOpen⟩ := (atL.exists_letter (by decide) (by decide)).mp third
    obtain ⟨inside, rfl, _⟩ := atOpen.exists_cons (by decide) fourth
    exact ⟨u, r, l, inside, rfl, isU, isR, isL⟩
  · rintro ⟨u, r, l, inside, rfl, isU, isR, isL⟩
    have atR : At text (i + 1) _ := h.next_ascii (by rcases isU with rfl | rfl <;> decide)
    have atL : At text (i + 2) _ := atR.next_ascii (by rcases isR with rfl | rfl <;> decide)
    have atOpen : At text (i + 3) _ := atL.next_ascii (by rcases isL with rfl | rfl <;> decide)
    exact ⟨⟨⟨(h.exists_letter (by decide) (by decide)).mpr ⟨u, _, rfl, isU, atR⟩,
      (atR.exists_letter (by decide) (by decide)).mpr ⟨r, _, rfl, isR, atL⟩⟩,
      (atL.exists_letter (by decide) (by decide)).mpr ⟨l, _, rfl, isL, atOpen⟩⟩,
      (atOpen.byte?_eq_some (by decide)).mpr rfl⟩

theorem At.behind_opening (h : At text i rest) {opening inside : List Char}
    (opens : urlOpening? rest = some (opening, inside)) : At text (i + 4) inside ∧ size opening = 4 := by
  obtain ⟨u, r, l, after, rfl, isU, isR, isL⟩ := isSome_urlOpening?_iff.mp (Option.isSome_of_eq_some opens)
  obtain ⟨whole, _⟩ := urlOpening?_append opens
  have same : opening = [u, r, l, '('] := by
    simp only [urlOpening?, Bool.and_eq_true, Bool.or_eq_true, decide_eq_true_eq, isU, isR, isL, and_self,
      if_true] at opens
    exact (Prod.mk.inj (Option.some.inj opens)).1.symm
  have letters : ∀ c ∈ opening, c.toNat < 0x80 := by
    rw [same]
    simp only [List.forall_mem_cons, List.not_mem_nil, false_implies, implies_true, and_true]
    refine ⟨?_, ?_, ?_, by decide⟩
    · rcases isU with rfl | rfl <;> decide
    · rcases isR with rfl | rfl <;> decide
    · rcases isL with rfl | rfl <;> decide
  have four : size opening = 4 := by
    rw [size_ascii letters, same]
    rfl
  rw [← whole] at h
  have there := h.behind
  rw [four] at there
  exact ⟨there, four⟩

theorem At.identBefore_eq (h : At text i (c :: rest)) : identBefore text (i + c.utf8Size) = .ok (isIdent c) := by
  obtain ⟨j, d, same, read, ident⟩ := h.exists_last Blind.ident
  rw [same, identBefore]
  simp only [read, ident]

-- The flag of a reader tells whether a character of a name stands before a position; it need not,
-- where no `url(` opens.
def Flagged (text : List Char) (i : Nat) (afterIdent : Bool) (rest : List Char) : Prop :=
  ∃ before, identBefore text i = .ok before ∧
    (before = afterIdent ∨ afterIdent = false ∧ (urlOpening? rest).isSome = false)

theorem At.flagged {taken : List Char} (h : At text i (taken ++ rest)) (some : taken ≠ [])
    (ended : Ended taken rest) : Flagged text (i + size taken) false rest := by
  obtain ⟨inner, c, rfl⟩ := (List.eq_nil_or_concat taken).resolve_left some
  rw [List.concat_eq_append, List.append_assoc] at h
  rw [List.concat_eq_append] at ended
  have read : identBefore text (i + size (inner.concat c)) = .ok (isIdent c) := by
    have last := h.behind.identBefore_eq
    have whole : i + size (inner.concat c) = i + size inner + c.utf8Size := by simp [Nat.add_assoc]
    rwa [whole]
  by_cases opens : (urlOpening? rest).isSome = true
  next =>
    have noIdent := ended opens
    rw [List.getLast?_append_of_ne_nil _ (by simp), List.getLast?_singleton, Option.map_some,
      Option.some.injEq] at noIdent
    exact ⟨_, read, .inl noIdent⟩
  next => exact ⟨_, read, .inr ⟨rfl, by simpa using opens⟩⟩

theorem At.cut_eq {middle : List Char} (h : At text i (middle ++ rest)) :
    cut text { start := i, stop := i + size middle } = .ok middle := by
  obtain ⟨before, rfl, rfl⟩ := h
  exact cut_middle rfl rfl rfl

theorem utf8Size_quote {quote : Char} (isQuote : isQuote quote = true) : quote.utf8Size = 1 :=
  utf8Size_ascii (ascii_of_isQuote isQuote)

theorem At.cut_body {quote : Char} {body after : List Char} (isQuote : isQuote quote = true)
    (h : At text i (quote :: rest)) (closed : quoted quote rest = some (body, after)) :
    stringEnd? text quote (i + 1) = some (i + size (quote :: body ++ [quote])) ∧
      cut text { start := i + 1, stop := i + size (quote :: body ++ [quote]) - 1 } = .ok body ∧
        At text (i + size (quote :: body ++ [quote])) after := by
  have inside := h.next_ascii (ascii_of_isQuote isQuote)
  have length : i + size (quote :: body ++ [quote]) = i + 1 + size body + 1 := by
    simp only [List.cons_append, size_cons, size_append, size_nil, utf8Size_quote isQuote]
    omega
  have whole := quoted_append closed
  refine ⟨?_, ?_, ?_⟩
  · rw [inside.stringEnd?_eq isQuote, closed, length]
    rfl
  · rw [length, Nat.add_sub_cancel]
    rw [← whole] at inside
    exact inside.cut_eq
  · apply At.behind
    rw [List.append_assoc, List.singleton_append, List.cons_append, whole]
    exact h

theorem At.stringEnd?_eq_none {quote : Char} (isQuote : isQuote quote = true) (h : At text i (quote :: rest))
    (unclosed : quoted quote rest = none) : stringEnd? text quote (i + 1) = none := by
  rw [(h.next_ascii (ascii_of_isQuote isQuote)).stringEnd?_eq isQuote, unclosed]
  rfl

theorem At.specifier?_eq_some {fromImport : Bool} {t : Token} {after : List Char} (h : At text i rest)
    (read : Token.specifier? fromImport rest = some (t, after)) :
    ∃ value, t.kind = .specifier value fromImport ∧ specifier? text fromImport i =
      .ok (some { span := { start := i, stop := i + size t.text }, value := String.ofList value, fromImport },
        i + size t.text) := by
  cases rest with
  | nil => simp [Token.specifier?] at read
  | cons c rest =>
    rw [Token.specifier?] at read
    simp only [specifier?, h.byte?_cons, test_lead Blind.quote, h.opensUrl_eq, test_lead Blind.endsRule]
    split at read
    next quote =>
      obtain ⟨⟨body, _⟩, closed, same⟩ := Option.map_eq_some_iff.mp read
      obtain ⟨rfl, rfl⟩ := Prod.mk.inj same
      obtain ⟨stop, middle, _⟩ := h.cut_body quote closed
      refine ⟨body, rfl, ?_⟩
      rw [if_pos quote, lead_of_ascii (ascii_of_isQuote quote), stop]
      simp only [middle]
      rfl
    next noQuote =>
      split at read
      next => simp at read
      next goesOn =>
        obtain ⟨rfl, rfl⟩ := Prod.mk.inj (Option.some.inj read)
        have noEnd : endsWord c = false := by
          simp only [endsRule, Bool.or_eq_true, not_or] at goesOn
          simpa using goesOn.2.1.1
        have word : (c :: rest).takeWhile (fun d => !endsWord d) = c :: rest.takeWhile fun d => !endsWord d := by
          simp [noEnd]
        have stop : passed text (fun d => !endsWord d) i = i + size (c :: rest.takeWhile fun d => !endsWord d) := by
          rw [h.passed_eq fun c d hc hd => congrArg (!·) (Blind.endsWord c d hc hd), word]
        have middle : cut text { start := i, stop := i + size (c :: rest.takeWhile fun d => !endsWord d) } =
            .ok (c :: rest.takeWhile fun d => !endsWord d) := by
          rw [← List.takeWhile_append_dropWhile (p := fun d => !endsWord d) (l := rest), ← List.cons_append] at h
          exact h.cut_eq
        refine ⟨_, rfl, ?_⟩
        rw [if_neg noQuote, if_neg goesOn]
        simp only [stop, middle]
        rfl

def Unclosed (rest : List Char) : Prop :=
  ∃ quote body, rest = quote :: body ∧ isQuote quote = true ∧ quoted quote body = none

theorem At.specifier?_eq_none {fromImport : Bool} (h : At text i rest)
    (read : Token.specifier? fromImport rest = none) :
    ∃ next, specifier? text fromImport i = .ok (none, next) ∧ (next = i ∨ next = size text ∧ Unclosed rest) := by
  cases rest with
  | nil => exact ⟨i, by simp only [specifier?, h.byte?_nil], .inl rfl⟩
  | cons c rest =>
    rw [Token.specifier?] at read
    simp only [specifier?, h.byte?_cons, test_lead Blind.quote, h.opensUrl_eq, test_lead Blind.endsRule]
    split at read
    next quote =>
      have unclosed := Option.map_eq_none_iff.mp read
      refine ⟨size text, ?_, .inr ⟨rfl, c, rest, rfl, quote, unclosed⟩⟩
      rw [if_pos quote, lead_of_ascii (ascii_of_isQuote quote), h.stringEnd?_eq_none quote unclosed]
    next noQuote =>
      split at read
      next ends => exact ⟨i, by rw [if_neg noQuote, if_pos ends], .inl rfl⟩
      next => simp at read

theorem At.closes_iff (h : At text i rest) : byte? text i = some ')' ↔ ∃ more, rest = ')' :: more := by
  rw [h.byte?_eq_some (by decide), List.head?_eq_some_iff]

theorem At.passed_blanks {blanks : List Char} (blank : ∀ d ∈ blanks, isSpace d = true) (noBlank : isSpace c = false)
    (h : At text i (blanks ++ c :: rest)) : passed text isSpace i = i + size blanks := by
  rw [h.passed_eq Blind.space, (Token.takeWhile_blanks blank noBlank rest).1]

theorem At.closes_behind_blanks (h : At text i rest) :
    byte? text (passed text isSpace i) = some ')' ↔ ∃ more, rest.dropWhile isSpace = ')' :: more := by
  have start := h.passed_eq Blind.space
  rw [← List.takeWhile_append_dropWhile (p := isSpace) (l := rest)] at h
  rw [start, h.behind.closes_iff]

theorem At.argument?_eq_some {t : Token} {closing more blanks : List Char} (blank : ∀ d ∈ blanks, isSpace d = true)
    (noBlank : isSpace c = false) (h : At text i (blanks ++ c :: rest))
    (read : Token.argument? c rest = some (t, closing, more)) :
    ∃ value, t.kind = .argument value ∧
      let span : Span := { start := i + size blanks, stop := i + size blanks + size t.text }
      argument? text i = .ok (some ({ span, value := String.ofList value }, span.stop + size closing)) := by
  have start := h.passed_blanks blank noBlank
  have there := h.behind
  have paren : size [')'] = 1 := size_ascii (List.forall_mem_singleton.mpr (by decide))
  unfold Token.argument? at read
  simp only [argument?, start, there.byte?_cons, test_lead Blind.quote]
  split at read
  next quote =>
    split at read
    next => simp at read
    next body after closed =>
      split at read
      next close =>
        obtain ⟨rfl, same⟩ := Prod.mk.inj (Option.some.inj read)
        obtain ⟨rfl, rfl⟩ := Prod.mk.inj same
        obtain ⟨stop, middle, behind⟩ := there.cut_body quote closed
        have closes := behind.closes_behind_blanks.mpr ⟨_, close⟩
        have gap := behind.passed_eq Blind.space
        rw [gap] at closes
        refine ⟨_, rfl, ?_⟩
        rw [if_pos quote, lead_of_ascii (ascii_of_isQuote quote), stop, size_append (after.takeWhile isSpace), paren]
        simp only [gap, closes, if_true, middle]
        rfl
      next => simp at read
  next noQuote =>
    split at read
    next => simp at read
    next arg after bare =>
      obtain ⟨rfl, same⟩ := Prod.mk.inj (Option.some.inj read)
      obtain ⟨rfl, rfl⟩ := Prod.mk.inj same
      have whole := bareArgument_append bare
      have close : bareEnd? text { braces := 0, parens := 0 } (i + size blanks) =
          some (i + size blanks + size arg) := by
        rw [there.bareEnd?_eq, bare]
        rfl
      rw [← whole] at there
      -- The slice ends before the blanks in front of the parenthesis.
      have stop := there.trimmed_eq
      have middle : cut text { start := i + size blanks, stop := i + size blanks + size (trimEnd arg) } =
          .ok (trimEnd arg) := by
        rw [← trimEnd_append arg, List.append_assoc] at there
        exact there.cut_eq
      refine ⟨_, rfl, ?_⟩
      have length := congrArg size (trimEnd_append arg)
      rw [size_append] at length
      have next : i + size blanks + size arg + 1 =
          i + size blanks + size (trimEnd arg) + size (endBlanks arg ++ [')']) := by
        rw [size_append, paren]
        omega
      rw [if_neg noQuote, close]
      simp only [stop, next]
      simp only [bind, Except.bind, middle]
      rfl

theorem At.argument?_eq_none {blanks : List Char} (blank : ∀ d ∈ blanks, isSpace d = true) (noBlank : isSpace c = false)
    (h : At text i (blanks ++ c :: rest)) (read : Token.argument? c rest = none) : argument? text i = .ok none := by
  have start := h.passed_blanks blank noBlank
  have there := h.behind
  unfold Token.argument? at read
  simp only [argument?, start, there.byte?_cons, test_lead Blind.quote]
  split at read
  next quote =>
    rw [if_pos quote, lead_of_ascii (ascii_of_isQuote quote)]
    split at read
    next unclosed => rw [there.stringEnd?_eq_none quote unclosed]
    next body after closed =>
      split at read
      next => simp at read
      next goesOn =>
        obtain ⟨stop, _, behind⟩ := there.cut_body quote closed
        have noClose : ¬byte? text (passed text isSpace (i + size blanks + size (c :: body ++ [c]))) = some ')' := by
          rw [behind.closes_behind_blanks]
          rintro ⟨more, close⟩
          exact goesOn more close
        rw [stop]
        simp only [if_neg noClose]
        rfl
  next noQuote =>
    split at read
    next broken => rw [if_neg noQuote, there.bareEnd?_eq, broken]; rfl
    next => simp at read

theorem At.exists_argument (h : At text i rest) {tokens : List Token} {more : List Char}
    (read : Token.urlTokens? rest = some (tokens, more)) :
    ∃ a, argument? text (i + 4) = .ok (some (a, i + size (Token.source tokens))) ∧
      Scan.ofTokens i tokens = { arguments := [a], specifiers := [] } := by
  obtain ⟨opening, blanks, c, after, t, closing, rfl, opens, blank, noBlank, argument⟩ :=
    Token.exists_of_urlTokens? read
  obtain ⟨inside, four⟩ := h.behind_opening opens
  obtain ⟨value, kind, found⟩ := inside.argument?_eq_some blank noBlank argument
  have start : i + size (opening ++ blanks) = i + 4 + size blanks := by rw [size_append, four, Nat.add_assoc]
  have next : i + size (Token.source [.plain (opening ++ blanks), t, .plain closing]) =
      i + 4 + size blanks + size t.text + size closing := by
    simp only [Token.source_cons, Token.source_nil, Token.text_plain, List.append_nil, size_append, four]
    omega
  rw [next]
  refine ⟨_, found, ?_⟩
  simp only [Scan.ofTokens, Token.plain, kind, start]
  rfl

theorem At.no_argument (h : At text i rest) (opens : (urlOpening? rest).isSome = true)
    (read : Token.urlTokens? rest = none) : argument? text (i + 4) = .ok none := by
  obtain ⟨⟨opening, inside⟩, opens⟩ := Option.isSome_iff_exists.mp opens
  obtain ⟨there, _⟩ := h.behind_opening opens
  have split : inside.takeWhile isSpace ++ inside.dropWhile isSpace = inside := List.takeWhile_append_dropWhile
  have blank : ∀ d ∈ inside.takeWhile isSpace, isSpace d = true := fun d hd => List.mem_takeWhile_imp hd
  have stop := List.head?_dropWhile_not isSpace inside
  cases left : inside.dropWhile isSpace with
  | nil =>
    have start := there.passed_eq Blind.space
    rw [← split, left] at there
    have ends := there.behind.byte?_nil
    rw [argument?]
    simp only [start, ends]
  | cons c after =>
    rw [left] at split stop
    have noBlank : isSpace c = false := by simpa using stop
    rw [← split] at there opens
    rw [Token.urlTokens?_of_opening opens blank noBlank, Option.map_eq_none_iff] at read
    exact there.argument?_eq_none blank noBlank read

end ByteScan

end StylesheetImports
