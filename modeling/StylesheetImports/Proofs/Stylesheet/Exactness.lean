import StylesheetImports.Proofs.Stylesheet.Passing

set_option autoImplicit false

namespace StylesheetImports

open Utf8 Lexeme

namespace Lexeme

theorem unescape_plain {text : List Char} (plain : '\\' ∉ text) : unescape text = text := by
  induction text with
  | nil => rfl
  | cons c text ih =>
    obtain ⟨here, later⟩ := List.ne_and_not_mem_of_not_mem_cons plain
    rw [unescape.eq_4 _ _ (fun _ _ same => absurd same.symm here) (fun same => absurd same.symm here), ih later]

theorem endBlanks_plain {text : List Char} (plain : ∀ c ∈ text, isSpace c = false) : endBlanks text = [] := by
  rw [List.eq_nil_iff_forall_not_mem]
  intro c mem
  have inText : c ∈ text := by
    rw [← trimEnd_append text]
    exact List.mem_append_right _ mem
  have blank := isSpace_of_mem_endBlanks mem
  rw [plain c inText] at blank
  cases blank

theorem trimEnd_plain {text : List Char} (plain : ∀ c ∈ text, isSpace c = false) : trimEnd text = text := by
  have whole := trimEnd_append text
  rwa [endBlanks_plain plain, List.append_nil] at whole

theorem bareArgument_plain {text : List Char}
    (plain : ∀ c ∈ text, isSpace c = false ∧ isQuote c = false ∧ c ≠ '(' ∧ c ≠ ')' ∧ c ≠ '\\')
    (noBraces : ¬ ['#', '\x7b'] <:+: text) {rest : List Char} (apart : rest.head? ≠ some '\x7b') :
    bareArgument { braces := 0, parens := 0 } (text ++ rest) =
      (bareArgument { braces := 0, parens := 0 } rest).map fun (arg, after) => (text ++ arg, after) := by
  induction text with
  | nil => simp
  | cons c text ih =>
    obtain ⟨⟨noSpace, _, noOpen, noClose, noEscape⟩, others⟩ := List.forall_mem_cons.mp plain
    have later : ¬ ['#', '\x7b'] <:+: text := fun found => noBraces (found.trans (List.suffix_cons c text).isInfix)
    have noBrace : ∀ tail, c = '#' -> text ++ rest = '\x7b' :: tail -> False := by
      rintro tail rfl head
      cases text with
      | nil => exact apart (by rw [show rest = '\x7b' :: tail from head]; rfl)
      | cons d text =>
        rw [List.cons_append, List.cons.injEq] at head
        exact noBraces ⟨[], text, by rw [head.1]; rfl⟩
    have noLine : c ≠ '\n' := by
      rintro rfl
      exact absurd noSpace (by decide)
    have next : ({ braces := 0, parens := 0 } : Depth).next c = .goOn { braces := 0, parens := 0 } := by
      simp [Depth.next, noOpen, noClose, noLine]
    rw [List.cons_append, bareArgument.eq_4 _ _ _ (fun _ _ same => absurd same noEscape) noBrace, next]
    simp only [ih others later, Option.map_map]
    rfl

theorem eq_of_toLower {c small : Char} (lower : c.toLower = small) :
    c = small ∨ 'A'.toNat ≤ c.toNat ∧ small.toNat = c.toNat + 32 := by
  subst lower
  unfold Char.toLower
  split
  next large =>
    obtain ⟨first, last⟩ := large
    simp only [ge_iff_le, UInt32.le_iff_toNat_le] at first last
    refine .inr ⟨first, ?_⟩
    have below : c.val.toNat ≤ 90 := last
    change (c.val + 32).toNat = c.val.toNat + 32
    rw [UInt32.toNat_add]
    apply Nat.mod_eq_of_lt
    change c.val.toNat + 32 < 2 ^ 32
    omega
  next => exact .inl rfl

theorem letter_of_toLower {c small large : Char} (lower : c.toLower = small) (pair : small.toNat = large.toNat + 32) :
    c = small ∨ c = large := by
  refine (eq_of_toLower lower).imp_right fun ⟨_, same⟩ => ?_
  apply Char.toNat_inj.mp
  omega

theorem urlOpening?_of_toLower {opening : List Char}
    (isOpening : opening.map Char.toLower = ['u', 'r', 'l', '(']) (rest : List Char) :
    urlOpening? (opening ++ rest) = some (opening, rest) := by
  simp only [List.map_eq_cons_iff, List.map_eq_nil_iff] at isOpening
  obtain ⟨u, _, rfl, isU, r, _, rfl, isR, l, _, rfl, isL, paren, _, rfl, isParen, rfl⟩ := isOpening
  have letters : (u = 'u' ∨ u = 'U') ∧ (r = 'r' ∨ r = 'R') ∧ (l = 'l' ∨ l = 'L') :=
    ⟨letter_of_toLower isU rfl, letter_of_toLower isR rfl, letter_of_toLower isL rfl⟩
  -- The parenthesis is below the letters that have another case.
  have isParen : paren = '(' := by
    refine (eq_of_toLower isParen).resolve_right fun ⟨letter, same⟩ => ?_
    rw [← Nat.add_le_add_iff_right, ← same] at letter
    exact absurd letter (by decide)
  simp [urlOpening?, letters, isParen]

end Lexeme

namespace Token

theorem argument?_string {quote : Char} {body after : List Char} (isQuote : isQuote quote = true)
    (closed : ∀ rest, quoted quote (body ++ quote :: rest) = some (body, rest))
    (blank : ∀ c ∈ after, isSpace c = true) (rest : List Char) :
    argument? quote (body ++ quote :: (after ++ ')' :: rest)) =
      some ({ text := quote :: body ++ [quote], kind := .argument (unescape body) }, after ++ [')'], rest) := by
  have close := takeWhile_blanks blank (c := ')') (by decide) rest
  rw [argument?, if_pos isQuote, closed]
  simp only [close.1, close.2]

theorem argument?_bare {c : Char} {text after : List Char}
    (plain : ∀ d ∈ c :: text, isSpace d = false ∧ isQuote d = false ∧ d ≠ '(' ∧ d ≠ ')' ∧ d ≠ '\\')
    (noBraces : ¬ ['#', '\x7b'] <:+: c :: text) (blank : ∀ d ∈ after, isSpace d = true) (rest : List Char) :
    argument? c (text ++ (after ++ ')' :: rest)) =
      if '\n' ∈ after then none
      else some ({ text := c :: text, kind := .argument (c :: text) }, after ++ [')'], rest) := by
  have noSpaces : ∀ d ∈ c :: text, isSpace d = false := fun d mem => (plain d mem).1
  have read := bareArgument_plain plain noBraces (head?_blanks blank rest)
  rw [List.cons_append] at read
  rw [argument?, if_neg (by simp [(plain c List.mem_cons_self).2.1]), read]
  by_cases line : '\n' ∈ after
  next => simp [bareArgument_line blank line, line]
  next =>
    rw [if_neg line, (bareArgument_blanks blank).mpr ⟨rfl, line, rfl⟩, Option.map_some]
    simp only [trimEnd_append_blanks _ blank, endBlanks_append_blanks _ blank, trimEnd_plain noSpaces,
      endBlanks_plain noSpaces, List.nil_append]
    rw [unescape_plain fun mem => (plain _ mem).2.2.2.2 rfl]

end Token

theorem Scan.scanFrom_url {opening before inside closing rest : List Char} {c : Char} {arg : Token}
    (isOpening : opening.map Char.toLower = ['u', 'r', 'l', '(']) (blank : ∀ d ∈ before, isSpace d = true)
    (stop : isSpace c = false) (read : Token.argument? c inside = some (arg, closing, rest)) (start : Nat) :
    scanFrom false start (opening ++ (before ++ c :: inside)) =
      ofTokens (start + size (opening ++ before)) [arg] ++
        scanFrom false (start + size (opening ++ before ++ (arg.text ++ closing))) rest := by
  have found := Token.urlTokens?_of_opening (urlOpening?_of_toLower isOpening (before ++ c :: inside)) blank stop
  rw [read, Option.map_some] at found
  have reads : Token.Reads false _ _ := .url rfl found
  rw [scanFrom_step reads]
  simp only [ofTokens, Token.plain, Token.source_cons, Token.source_nil, List.append_nil]

namespace Fragment

theorem UrlArgument.argument?_eq (a : UrlArgument) (rest : List Char) :
    ∃ c inside, a.written ++ (a.after ++ ')' :: rest) = c :: inside ∧ isSpace c = false ∧
      Token.argument? c inside =
        some ({ text := a.written, kind := .argument a.value }, a.after ++ [')'], rest) := by
  cases a with
  | quoted q after blank =>
    refine ⟨q.quote, q.body ++ q.quote :: (after ++ ')' :: rest), ?_, not_isSpace_of_isQuote q.isQuote, ?_⟩
    · simp [written, UrlArgument.after, Quoted.text]
    · rw [Token.argument?_string q.isQuote (quoted_plain q.isQuote q.plain) blank,
        unescape_plain fun mem => (q.plain _ mem).2.1 rfl]
      rfl
  | bare text after some plain noBraces blank =>
    obtain ⟨c, inside, rfl⟩ := List.exists_cons_of_ne_nil some
    have space : ∀ d ∈ after, isSpace d = true := fun d mem => by rcases blank d mem with rfl | rfl <;> rfl
    have noLine : '\n' ∉ after := fun mem => by rcases blank _ mem with same | same <;> cases same
    refine ⟨c, inside ++ (after ++ ')' :: rest), rfl, (plain c List.mem_cons_self).1, ?_⟩
    rw [Token.argument?_bare plain noBraces space, if_neg noLine]
    rfl

theorem UrlCall.passes (u : UrlCall) :
    Passes u.text fun start => { arguments := [u.argumentAt start], specifiers := [] } where
  calm := fun rest _ => calm_cons (by decide) (by decide)
  scan := by
    intro afterIdent start rest _
    refine ⟨false, ?_⟩
    obtain ⟨c, inside, written, stop, argument⟩ := u.argument.argument?_eq rest
    have whole : u.text ++ rest = ' ' :: (u.opening ++ (u.before ++ c :: inside)) := by simp [text, ← written]
    have blank : Token.Reads afterIdent (' ' :: (u.opening ++ (u.before ++ c :: inside))) _ := .blank (by decide)
    rw [whole, Scan.scanFrom_plain blank, Scan.scanFrom_url u.isOpening u.blank stop argument]
    have first : start + size [' '] + size (u.opening ++ u.before) = start + size (' ' :: u.opening ++ u.before) := by
      simp [Nat.add_assoc]
    have last : start + size [' '] +
        size (u.opening ++ u.before ++ (u.argument.written ++ (u.argument.after ++ [')']))) =
          start + size u.text := by simp [text, Nat.add_assoc]
    rw [first, last]
    rfl

theorem Quoted.specifier?_eq (q : Quoted) (fromImport : Bool) (rest : List Char) :
    Token.specifier? fromImport (q.text ++ rest) =
      some ({ text := q.text, kind := .specifier q.body fromImport }, rest) := by
  rw [text, List.append_assoc, List.cons_append, List.singleton_append, Token.specifier?, if_pos q.isQuote,
    quoted_plain q.isQuote q.plain]
  rfl

theorem Quoted.gap_text (q : Quoted) (rest : List Char) : gap .space (q.text ++ rest) = ([], q.text ++ rest) := by
  have apart : q.quote ≠ '/' ∧ isSpace q.quote = false := by
    rcases eq_of_isQuote q.isQuote with same | same <;> rw [same] <;> decide
  rw [text, List.append_assoc, List.cons_append, gap_space_cons apart.1, if_neg (by simp [apart.2])]

theorem Blank.apart_text (b : Blank) (rest : List Char) : ((b.text ++ rest).head?.map isIdent).getD false = false := by
  cases b with
  | space c blank => rcases eq_of_isSpace blank with rfl | rfl | rfl | rfl | rfl <;> rfl
  | comment c =>
    obtain ⟨text, same⟩ := c.text_eq
    simp [Blank.text, same]
    decide

namespace Item

theorem gap_text (i : Item) (rest : List Char) :
    gap .space (i.text ++ rest) = (blanks i.before, i.specifier.text ++ (blanks i.after ++ rest)) := by
  rw [text, List.append_assoc, List.append_assoc, gap_blanks, Quoted.gap_text, List.append_nil]

theorem gap_after (i : Item) {c : Char} (noBlank : isSpace c = false) (noSlash : c ≠ '/') (rest : List Char) :
    gap .space (blanks i.after ++ c :: rest) = (blanks i.after, c :: rest) := by
  rw [gap_blanks, gap_space_cons noSlash, if_neg (by simp [noBlank]), List.append_nil]

theorem apart_text (i : Item) (rest : List Char) : ((i.text ++ rest).head?.map isIdent).getD false = false := by
  have noIdent : isIdent i.specifier.quote = false := by
    rcases eq_of_isQuote i.specifier.isQuote with same | same <;> rw [same] <;> decide
  rw [text]
  cases i.before with
  | nil => simpa [blanks, Quoted.text] using noIdent
  | cons b before =>
    rw [blanks, List.flatMap_cons, List.append_assoc, List.append_assoc, List.append_assoc]
    exact b.apart_text _

theorem ruleTokens_listed (fromImport : Bool) (i : Item) (more : List Item) (list : more ≠ [] -> fromImport = true)
    (rest : List Char) :
    ∃ tokens left, Token.ruleTokens fromImport (listed i more ++ ';' :: rest) = (tokens, blanks left ++ ';' :: rest) ∧
      Token.source tokens ++ blanks left = listed i more ∧
      ∀ start, Scan.ofTokens start tokens =
        { arguments := [], specifiers := specifiersAt fromImport start i more } := by
  induction more generalizing i with
  | nil =>
    have last : fromImport = true -> (gap .space (blanks i.after ++ ';' :: rest)).2.head? ≠ some ',' := by
      intro _
      rw [i.gap_after (by decide) (by decide)]
      simp
    have read := Token.ruleTokens_last (i.gap_text (';' :: rest)) (i.specifier.specifier?_eq fromImport _) last
    have written : listed i [] = i.text := by simp [listed]
    rw [← written] at read
    refine ⟨_, i.after, read, ?_, fun start => ?_⟩
    · simp [written, text]
    · simp [Scan.ofTokens, Scan.empty, Token.plain, specifiersAt, specifierAt]
  | cons j more ih =>
    obtain rfl := list (List.cons_ne_nil j more)
    obtain ⟨tokens, left, others, whole, found⟩ := ih j fun _ => rfl
    have comma := i.gap_after (c := ',') (by decide) (by decide) (listed j more ++ ';' :: rest)
    have read := Token.ruleTokens_more (i.gap_text _) (i.specifier.specifier?_eq true _) comma
    have written : listed i (j :: more) = i.text ++ ',' :: listed j more := by simp [listed]
    have before : listed i (j :: more) ++ ';' :: rest = i.text ++ ',' :: (listed j more ++ ';' :: rest) := by
      simp [written]
    rw [others, ← before] at read
    refine ⟨_, left, read, ?_, fun start => ?_⟩
    · rw [written, ← whole]
      simp [text]
    · simp [Scan.ofTokens, Token.plain, found, specifiersAt, specifierAt, text, Nat.add_assoc]

end Item

namespace Rule

theorem exists_named {name : List Char} {fromImport : Bool} (named : (name, fromImport) ∈ ruleNames) (item : Item) :
    ∃ r : Rule, r.name = name ∧ r.isImport = fromImport ∧ r.first = item ∧ r.more = [] := by
  rw [ruleNames_eq] at named
  simp only [List.mem_cons, Prod.mk.injEq, List.not_mem_nil, or_false] at named
  rcases named with ⟨rfl, rfl⟩ | ⟨rfl, rfl⟩ | ⟨rfl, rfl⟩
  · exact ⟨.imports item [], rfl, rfl, rfl, rfl⟩
  · exact ⟨.use item, rfl, rfl, rfl, rfl⟩
  · exact ⟨.forward item, rfl, rfl, rfl, rfl⟩

theorem rule?_name (r : Rule) {rest : List Char} (apart : (rest.head?.map isIdent).getD false = false) :
    rule? (r.name ++ rest) = some (r.name, r.isImport, rest) := by
  have alone : rule? r.name = some (r.name, r.isImport, []) := by cases r <;> rfl
  exact rule?_take alone apart

theorem isImport_of_more {r : Rule} (list : r.more ≠ []) : r.isImport = true := by
  cases r with
  | imports first more => rfl
  | _ => exact absurd rfl list

theorem passes (r : Rule) : Passes r.text fun start => { arguments := [], specifiers := r.specifiersAt start } where
  calm := fun rest _ => calm_cons (by decide) (by decide)
  scan := by
    intro afterIdent start rest calm
    obtain ⟨tokens, left, read, whole, found⟩ :=
      Item.ruleTokens_listed r.isImport r.first r.more isImport_of_more rest
    have apart : (((Item.listed r.first r.more) ++ ';' :: rest).head?.map isIdent).getD false = false := by
      rw [Item.listed, List.append_assoc]
      exact r.first.apart_text _
    have reads : Token.Reads afterIdent _ _ := .rule (r.rule?_name apart)
    rw [read] at reads
    -- The blanks behind the last specifier and the semicolon are read like any other text.
    have close := (passes_blanks left).append_silent
      (Passes.char (c := ';') (by decide) (by decide) (by decide) (by decide))
    obtain ⟨behind, later⟩ :=
      close.scan false (start + size (Token.source (.plain ('@' :: r.name) :: tokens))) rest calm
    refine ⟨behind, ?_⟩
    have text_eq : r.text ++ rest = '@' :: (r.name ++ (Item.listed r.first r.more ++ ';' :: rest)) := by simp [text]
    have last : start + size (Token.source (.plain ('@' :: r.name) :: tokens)) + size (blanks left ++ [';']) =
        start + size r.text := by
      simp [text, ← whole, Nat.add_assoc]
    rw [List.append_assoc, List.singleton_append, last] at later
    rw [text_eq, Scan.scanFrom_step reads, later]
    simp only [Scan.ofTokens, Token.plain, found]
    rfl

end Rule

theorem passes (f : Fragment) : Passes f.text fun start => f.referencesAt start := by
  cases f with
  | filler text plain => exact passes_filler plain
  | comment c => exact c.passes
  | string q => exact q.passes
  | url u => exact u.passes
  | rule r => exact r.passes

theorem passes_all (fs : List Fragment) : Passes (fs.flatMap text) fun start => references start fs := by
  induction fs with
  | nil => exact .nil
  | cons f fs ih =>
    rw [List.flatMap_cons]
    exact f.passes.append ih

/-- A scan finds what the fragments of a stylesheet refer to, where it stands, and nothing else. -/
theorem scan_exact (fs : List Fragment) : Scan.ofText (String.ofList (fs.flatMap text)) = references 0 fs := by
  obtain ⟨behind, found⟩ := (passes_all fs).scan false 0 [] calm_nil
  have nothing (start : Nat) : Scan.scanFrom behind start [] = .empty := by
    simp [Scan.scanFrom, Token.tokensFrom, Scan.ofTokens]
  rw [List.append_nil, nothing, Scan.append_empty] at found
  rw [Scan.ofText, String.toList_ofList]
  exact found

example :
    references 0 [
      .comment (.line "it's".toList (by decide)),
      .rule (.use {
        before := [.space ' ' (by decide), .comment (.block [] (by decide))]
        specifier := { quote := '"', body := "é".toList, isQuote := by decide, plain := by simp }
        after := [] }),
      .filler "src:".toList (by simp [Lexeme.isQuote]),
      .url {
        opening := "URL(".toList
        isOpening := by decide
        before := []
        blank := by simp
        argument := .bare "c".toList [' '] (by simp) (by simp [isSpace, Lexeme.isQuote]) (by decide) (by simp) }] =
      { arguments := [{ span := { start := 30, stop := 31 }, value := "c" }]
        specifiers := [{ span := { start := 16, stop := 20 }, value := "é", fromImport := false }] } := by
  decide

end Fragment

end StylesheetImports
