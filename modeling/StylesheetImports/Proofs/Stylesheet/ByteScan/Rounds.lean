import StylesheetImports.Proofs.Stylesheet.ByteScan.Agreement

set_option autoImplicit false

namespace StylesheetImports

open Utf8 Lexeme

namespace Lexeme

theorem gap_ended (g : Gap) (cs : List Char) :
    (g = .space ∧ (gap g cs).1 = []) ∨ ByteScan.Ended (gap g cs).1 (gap g cs).2 := by
  induction g, cs using gap.induct with
  | case1 g =>
    apply Or.inr
    apply ByteScan.Ended.of_head
    simp [gap]
  | case2 rest ih =>
    have inside := ih.resolve_left (by simp)
    rw [gap]
    exact .inr (inside.append ['/', '*'])
  | case3 rest ih =>
    have inside := ih.resolve_left (by simp)
    rw [gap]
    exact .inr (inside.append ['/', '/'])
  | case4 c rest noBlock noLine blank ih =>
    rw [gap.eq_4 _ _ noBlock noLine, if_pos blank]
    apply Or.inr
    rcases ih with ⟨_, none⟩ | inside
    · rw [none]
      apply ByteScan.Ended.of_last []
      rcases eq_of_isSpace blank with rfl | rfl | rfl | rfl | rfl <;> decide
    · exact inside.append [c]
  | case5 c rest noBlock noLine noBlank =>
    rw [gap.eq_4 _ _ noBlock noLine, if_neg noBlank]
    exact .inl ⟨rfl, rfl⟩
  | case6 rest ih =>
    rw [gap]
    apply Or.inr
    rcases ih with ⟨_, none⟩ | inside
    · rw [none]
      exact .of_last ['*'] (by decide)
    · exact inside.append ['*', '/']
  | case7 c rest noEnd ih =>
    have inside := ih.resolve_left (by simp)
    rw [gap.eq_6 _ _ noEnd]
    exact .inr (inside.append [c])
  | case8 rest ih =>
    simp only [gap, if_true]
    apply Or.inr
    rcases ih with ⟨_, none⟩ | inside
    · rw [none]
      exact .of_last [] (by decide)
    · exact inside.append ['\n']
  | case9 c rest noEnd ih =>
    have inside := ih.resolve_left (by simp)
    simp only [gap, if_neg noEnd]
    exact .inr (inside.append [c])

end Lexeme

namespace ByteScan

variable {text rest : List Char} {i : Nat} {c : Char}

theorem specifier?_ended {fromImport : Bool} {t : Token} {after : List Char}
    (read : Token.specifier? fromImport rest = some (t, after)) : Ended t.text after := by
  cases rest with
  | nil => simp [Token.specifier?] at read
  | cons c rest =>
    rw [Token.specifier?] at read
    split at read
    next quote =>
      obtain ⟨⟨body, _⟩, _, same⟩ := Option.map_eq_some_iff.mp read
      obtain ⟨rfl, rfl⟩ := Prod.mk.inj same
      apply Ended.of_last
      rcases eq_of_isQuote quote with rfl | rfl <;> decide
    next =>
      split at read
      next => simp at read
      next =>
        obtain ⟨rfl, rfl⟩ := Prod.mk.inj (Option.some.inj read)
        apply Ended.of_head
        intro d head
        have stop := List.head?_dropWhile_not (fun d => !endsWord d) rest
        rw [head] at stop
        constructor <;> rintro rfl <;> exact absurd stop (by decide)

theorem ruleTokens_ended (fromImport : Bool) (cs : List Char) :
    Token.source (Token.ruleTokens fromImport cs).1 = [] ∨
      Ended (Token.source (Token.ruleTokens fromImport cs).1) (Token.ruleTokens fromImport cs).2 := by
  induction cs using Token.ruleTokens_induction fromImport with
  | none cs before listed blanks read =>
    have ended := gap_ended .space cs
    rw [blanks] at ended
    rw [Token.ruleTokens_none blanks read]
    simpa using ended.imp_left And.right
  | last cs before listed t after blanks read last =>
    rw [Token.ruleTokens_last blanks read last]
    have ended := (specifier?_ended read).append before
    exact .inr (by simpa using ended)
  | more cs before listed t after between rest blanks read comma list ih =>
    subst list
    rw [Token.ruleTokens_more blanks read comma]
    have ended : Ended ([','] ++ Token.source (Token.ruleTokens true rest).1) (Token.ruleTokens true rest).2 := by
      rcases ih with none | inside
      · rw [none]
        exact .of_last [] (by decide)
      · exact inside.append [',']
    exact .inr (by simpa using ended.append (before ++ t.text ++ between))

theorem ruleFrom_of_none {fromImport : Bool} {next : Nat}
    (none : specifier? text fromImport (gapEnd text i) = .ok (none, next)) :
    ruleFrom text fromImport i = .ok ([], next) := by
  rw [ruleFrom, none]
  rfl

theorem ruleFrom_of_last {fromImport : Bool} {next : Nat} {s : Specifier}
    (found : specifier? text fromImport (gapEnd text i) = .ok (some s, next))
    (last : ¬(fromImport = true ∧ byte? text (gapEnd text next) = some ',')) :
    ruleFrom text fromImport i = .ok ([s], next) := by
  rw [ruleFrom, found]
  simp only [bind, Except.bind, dif_neg last]
  rfl

theorem ruleFrom_of_more {next stop : Nat} {s : Specifier} {later : List Specifier}
    (found : specifier? text true (gapEnd text i) = .ok (some s, next))
    (comma : byte? text (gapEnd text next) = some ',') (on : i < gapEnd text next + 1)
    (listed : ruleFrom text true (gapEnd text next + 1) = .ok (later, stop)) :
    ruleFrom text true i = .ok (s :: later, stop) := by
  rw [ruleFrom, found]
  simp only [bind, Except.bind, comma, and_self, dif_pos, on, listed]
  rfl

theorem At.behind_gap (h : At text i rest) : At text (gapEnd text i) (gap .space rest).2 := by
  rw [h.gapEnd_eq]
  rw [← gap_append .space rest] at h
  exact h.behind

theorem At.behind_specifier {fromImport : Bool} {t : Token} {after : List Char} (h : At text i rest)
    (read : Token.specifier? fromImport rest = some (t, after)) : At text (i + size t.text) after := by
  rw [← (Token.specifier?_append read).1] at h
  exact h.behind

theorem At.exists_ruleFrom (fromImport : Bool) {cs : List Char} (h : At text i cs) :
    ∃ next, ruleFrom text fromImport i =
        .ok ((Scan.ofTokens i (Token.ruleTokens fromImport cs).1).specifiers, next) ∧
      (next = i + size (Token.source (Token.ruleTokens fromImport cs).1) ∨
        next = size text ∧ Unclosed (Token.ruleTokens fromImport cs).2) := by
  induction cs using Token.ruleTokens_induction fromImport generalizing i with
  | none cs before listed blanks read =>
    have start := h.gapEnd_eq
    have there := h.behind_gap
    rw [blanks] at start there
    obtain ⟨next, none, outcome⟩ := there.specifier?_eq_none read
    rw [Token.ruleTokens_none blanks read]
    refine ⟨next, ruleFrom_of_none none, ?_⟩
    rw [start] at outcome
    simpa using outcome
  | last cs before listed t after blanks read last =>
    have start := h.gapEnd_eq
    have there := h.behind_gap
    rw [blanks] at start there
    obtain ⟨value, kind, found⟩ := there.specifier?_eq_some read
    have noComma : ¬(fromImport = true ∧ byte? text (gapEnd text (gapEnd text i + size t.text)) = some ',') := by
      rintro ⟨list, comma⟩
      exact last list (((there.behind_specifier read).behind_gap.byte?_eq_some (by decide)).mp comma)
    rw [Token.ruleTokens_last blanks read last]
    refine ⟨_, ?_, .inl rfl⟩
    rw [ruleFrom_of_last found noComma, start]
    simp [Scan.ofTokens, Token.plain, kind, Scan.empty, Nat.add_assoc]
  | more cs before listed t after between rest blanks read comma list ih =>
    subst list
    have start := h.gapEnd_eq
    have there := h.behind_gap
    rw [blanks] at start there
    obtain ⟨value, kind, found⟩ := there.specifier?_eq_some read
    have behind := there.behind_specifier read
    have gap := behind.gapEnd_eq
    have atComma := behind.behind_gap
    rw [comma] at gap atComma
    obtain ⟨next, later, outcome⟩ := ih (atComma.next_ascii (by decide))
    have taken : gapEnd text (gapEnd text i + size t.text) + 1 =
        i + size before + size t.text + size (between ++ [',']) := by
      rw [gap, start, size_append, size_ascii (List.forall_mem_singleton.mpr (by decide))]
      rfl
    have on : i < gapEnd text (gapEnd text i + size t.text) + 1 := by omega
    rw [Token.ruleTokens_more blanks read comma]
    refine ⟨next, ?_, ?_⟩
    · rw [ruleFrom_of_more found ((atComma.byte?_eq_some (by decide)).mpr rfl) on later, taken, start]
      simp [Scan.ofTokens, Token.plain, kind]
    · refine outcome.imp_left fun stop => ?_
      rw [stop, taken]
      simp [Nat.add_assoc]

theorem scanFrom_of_none (none : byte? text i = none) : scanFrom text i = .ok .empty := by
  rw [scanFrom]
  split <;> simp_all

theorem scanFrom_of_round {found later : Scan} {next : Nat} (read : byte? text i = some c)
    (here : round text c i = .ok (found, next)) (on : i < next) (rest : scanFrom text next = .ok later) :
    scanFrom text i = .ok (found ++ later) := by
  rw [scanFrom]
  split
  next none => simp [none] at read
  next again =>
    obtain rfl := Option.some.inj (again.symm.trans read)
    simp only [here, bind, Except.bind, dif_pos on, rest]
    rfl

theorem scanFrom_of_silence (read : byte? text i = some c) (here : round text c i = .ok (.empty, i + 1)) :
    scanFrom text i = scanFrom text (i + 1) := by
  rw [scanFrom]
  split
  next none => simp [none] at read
  next again =>
    obtain rfl := Option.some.inj (again.symm.trans read)
    simp only [here, bind, Except.bind, dif_pos (Nat.lt_succ_self i)]
    cases scanFrom text (i + 1) <;> rfl

theorem exists_identBefore (within : i <= size text) : ∃ before, identBefore text i = .ok before := by
  cases i with
  | zero => exact ⟨false, rfl⟩
  | succ i =>
    obtain ⟨d, read⟩ := Option.isSome_iff_exists.mp ((byte?_isSome text).mpr within)
    exact ⟨isIdent d, by simp only [identBefore, read]⟩

section

variable (noComment : commentEnd? text i = none)

include noComment

theorem round_of_quote (quote : isQuote c = true) :
    round text c i = .ok (.empty, (stringEnd? text c (i + 1)).getD (size text)) := by
  simp only [round, noComment, quote, if_true]
  rfl

theorem round_of_rule {name : List Char} {fromImport : Bool} {specifiers : List Specifier} {next : Nat}
    (named : rule? text (i + 1) = some (name, fromImport))
    (listed : ruleFrom text fromImport (i + 1 + name.length) = .ok (specifiers, next)) :
    round text '@' i = .ok ({ arguments := [], specifiers }, next) := by
  have noQuote : isQuote '@' = false := by decide
  simp only [round, noComment, noQuote, if_true, named, listed]
  rfl

variable (noQuote : isQuote c = false) (noRule : c = '@' -> rule? text (i + 1) = none)

include noQuote noRule

theorem round_of_url {a : Argument} {next : Nat} (opens : opensUrl text i = true)
    (apart : identBefore text i = .ok false) (found : argument? text (i + 4) = .ok (some (a, next))) :
    round text c i = .ok ({ arguments := [a], specifiers := [] }, next) := by
  have unread : (if c = '@' then rule? text (i + 1) else none) = none := by simpa using noRule
  simp only [round, noComment, noQuote, unread, opens, apart, found, bind, Except.bind]
  rfl

theorem round_of_silence {before : Bool} (known : identBefore text i = .ok before)
    (noArgument : opensUrl text i = true -> before = false -> argument? text (i + 4) = .ok none) :
    round text c i = .ok (.empty, i + 1) := by
  have unread : (if c = '@' then rule? text (i + 1) else none) = none := by simpa using noRule
  simp only [round, noComment, noQuote, unread, known, bind, Except.bind]
  by_cases opens : opensUrl text i && !before
  next =>
    rw [Bool.and_eq_true, Bool.not_eq_true'] at opens
    simp only [opens, noArgument opens.1 opens.2]
    rfl
  next =>
    simp only [Bool.not_eq_true] at opens
    simp only [opens]
    rfl

end

theorem At.scanFrom_pass (h : At text i (c :: rest)) : scanFrom text (i + 1) = scanFrom text (i + c.utf8Size) := by
  refine h.pass (f := scanFrom text) fun _ j d read high => scanFrom_of_silence read ?_
  have apart (e : Char) (ascii : e.toNat < 0x80) : d ≠ e := Blind.ne_of_high high ascii
  have noByte (e : Char) (ascii : e.toNat < 0x80) : byte? text j ≠ some e := by
    rw [read]
    simpa using apart e ascii
  have noComment : commentEnd? text j = none := by
    simp [commentEnd?, noByte '/' (by decide)]
  have noQuote : isQuote d = false := by
    simp [isQuote, apart '"' (by decide), apart '\'' (by decide)]
  have noUrl : opensUrl text j = false := by
    simp [opensUrl, noByte 'u' (by decide), noByte 'U' (by decide)]
  obtain ⟨before, known⟩ := exists_identBefore (Nat.le_of_lt (lt_size read))
  apply round_of_silence noComment noQuote (fun isRule => absurd isRule (apart '@' (by decide))) known
  simp [noUrl]

theorem round_of_comment {next : Nat} (comment : commentEnd? text i = some next) :
    round text c i = .ok (.empty, next) := by
  simp only [round, comment]
  rfl

/-- A round at `c :: rest` takes characters and reports what a reader of the characters does; the scan goes on behind
them. -/
structure Keeps (text : List Char) (i : Nat) (afterIdent : Bool) (c : Char) (rest : List Char) (found : Scan)
    (next : Nat) (taken after : List Char) (behind : Bool) : Prop where
  ends : round text (lead c) i = .ok (found, next)
  goesOn : i < next
  split : c :: rest = taken ++ after
  some : taken ≠ []
  flagged : Flagged text (i + size taken) behind after
  resumes : scanFrom text next = scanFrom text (i + size taken)
  reports : Scan.scanFrom afterIdent i (c :: rest) = found ++ Scan.scanFrom behind (i + size taken) after

def Kept (text : List Char) (i : Nat) (afterIdent : Bool) (c : Char) (rest : List Char) : Prop :=
  ∃ found next taken after behind, Keeps text i afterIdent c rest found next taken after behind

theorem size_pos (taken : List Char) (some : taken ≠ []) : 0 < size taken := by
  obtain ⟨c, taken, rfl⟩ := List.exists_cons_of_ne_nil some
  have := c.utf8Size_pos
  rw [size_cons]
  omega

variable {afterIdent : Bool}

theorem At.keeps_comment (h : At text i (c :: rest)) {next : Nat} (comment : commentEnd? text i = some next) :
    Kept text i afterIdent c rest := by
  obtain ⟨body, after, same, rfl, taken, ended⟩ := h.exists_commentEnd? comment
  have whole := h
  rw [same] at whole
  refine ⟨.empty, _, '/' :: body, after, false, round_of_comment comment, ?_, same, by simp, ?_, rfl, ?_⟩
  · have := size_pos ('/' :: body) (by simp)
    omega
  · exact whole.flagged (by simp) ended
  · obtain rfl : c = '/' := (List.cons.inj same).1
    have reads : Token.Reads afterIdent ('/' :: rest) _ := .comment (by rw [taken]; simp)
    rw [Scan.empty_append, Scan.scanFrom_plain reads, taken, size_append, ← Nat.add_assoc, ← Scan.scanFrom_gap]

theorem At.noComment (h : At text i (c :: rest)) (noSlash : c ≠ '/') : commentEnd? text i = none := by
  rw [h.commentEnd?_eq_none]
  intro inside
  constructor <;> exact fun same => noSlash (List.cons.inj same).1

theorem ne_slash_of_isQuote (quote : isQuote c = true) : c ≠ '/' := by
  rcases eq_of_isQuote quote with rfl | rfl <;> decide

theorem At.flagged_end (h : At text i rest) (some : rest ≠ []) : Flagged text (i + size rest) false [] := by
  have whole : At text i (rest ++ []) := by rwa [List.append_nil]
  exact whole.flagged some (.of_head (by simp))

theorem At.keeps_string (h : At text i (c :: rest)) (quote : isQuote c = true) : Kept text i afterIdent c rest := by
  have ends := round_of_quote (h.noComment (ne_slash_of_isQuote quote)) quote
  cases closed : quoted c rest with
  | some string =>
    obtain ⟨body, after⟩ := string
    obtain ⟨stop, _, _⟩ := h.cut_body quote closed
    have split : c :: rest = c :: body ++ [c] ++ after := by
      rw [← quoted_append closed]
      simp
    refine ⟨.empty, _, c :: body ++ [c], after, false, ?_, ?_, split, by simp, ?_, rfl, ?_⟩
    · rw [lead_of_ascii (ascii_of_isQuote quote), ends, stop]
      rfl
    · have := size_pos (c :: body ++ [c]) (by simp)
      omega
    · rw [split] at h
      apply h.flagged (by simp)
      apply Ended.of_last
      rcases eq_of_isQuote quote with rfl | rfl <;> decide
    · exact Scan.scanFrom_plain (.string quote closed) i
  | none =>
    have length := h.size_eq
    have some := size_pos (c :: rest) (by simp)
    refine ⟨.empty, size text, c :: rest, [], false, ?_, by omega, by simp, by simp, ?_, by rw [length], ?_⟩
    · rw [lead_of_ascii (ascii_of_isQuote quote), ends, h.stringEnd?_eq_none quote closed]
      rfl
    · exact h.flagged_end (by simp)
    · exact Scan.scanFrom_plain (.openString quote closed) i

theorem size_rule? {name after : List Char} {fromImport : Bool}
    (named : Lexeme.rule? rest = some (name, fromImport, after)) : size name = name.length := by
  obtain ⟨entry, mem, read⟩ := List.exists_of_findSome?_eq_some named
  obtain ⟨_, _, same⟩ := Option.bind_eq_some_iff.mp read
  split at same
  next => simp at same
  next =>
    rw [← (Prod.mk.inj (Option.some.inj same)).1]
    exact size_ascii (ascii_ruleNames entry mem)

theorem scanFrom_of_unclosed (unclosed : Unclosed rest) (start : Nat) :
    Scan.scanFrom afterIdent start rest = .empty := by
  obtain ⟨quote, body, rfl, isQuote, unclosed⟩ := unclosed
  rw [Scan.scanFrom_plain (.openString isQuote unclosed)]
  simp [Scan.scanFrom, Token.tokensFrom, Scan.ofTokens]

theorem scanFrom_of_rule {name after : List Char} {fromImport : Bool}
    (named : Lexeme.rule? rest = some (name, fromImport, after)) :
    Scan.scanFrom afterIdent i ('@' :: rest) =
      { arguments := []
        specifiers := (Scan.ofTokens (i + 1 + name.length) (Token.ruleTokens fromImport after).1).specifiers } ++
      Scan.scanFrom false (i + 1 + name.length + size (Token.source (Token.ruleTokens fromImport after).1))
        (Token.ruleTokens fromImport after).2 := by
  have start : i + size ('@' :: name) = i + 1 + name.length := by
    rw [size_cons, size_rule? named, utf8Size_ascii (by decide), Nat.add_assoc]
  have silent := Scan.arguments_ruleTokens fromImport after (i + 1 + name.length)
  rw [Scan.scanFrom_step (.rule named), Token.source_cons, Token.text_plain, size_append, ← Nat.add_assoc, start,
    ← silent]
  simp only [Scan.ofTokens, Token.plain, start]

theorem At.keeps_rule {name after : List Char} {fromImport : Bool} (h : At text i ('@' :: rest))
    (named : Lexeme.rule? rest = some (name, fromImport, after)) : Kept text i afterIdent '@' rest := by
  have inside := h.next_ascii (by decide)
  have whole := rule?_append named
  have found : rule? text (i + 1) = some (name, fromImport) := by
    rw [inside.rule?_eq, named]
    rfl
  have there : At text (i + 1 + name.length) after := by
    rw [← whole] at inside
    rw [← size_rule? named]
    exact inside.behind
  obtain ⟨next, listed, outcome⟩ := there.exists_ruleFrom fromImport
  have ends := round_of_rule (h.noComment (by decide)) found listed
  have low : lead '@' = '@' := lead_of_ascii (by decide)
  have length := h.size_eq
  have some := size_pos ('@' :: rest) (by simp)
  rcases outcome with stop | ⟨stop, unclosed⟩
  · have taken : next = i + size ('@' :: name ++ Token.source (Token.ruleTokens fromImport after).1) := by
      rw [stop, size_append, size_cons, size_rule? named, utf8Size_ascii (by decide)]
      omega
    have split : '@' :: rest = '@' :: name ++ Token.source (Token.ruleTokens fromImport after).1 ++
        (Token.ruleTokens fromImport after).2 := by
      rw [List.append_assoc, Token.ruleTokens_source, List.cons_append, whole]
    refine ⟨_, next, _, _, false, low ▸ ends, ?_, split, by simp, ?_, by rw [taken], ?_⟩
    · omega
    · rw [split] at h
      apply h.flagged (by simp)
      rcases ruleTokens_ended fromImport after with none | ended
      · -- Nothing is taken behind the name of the rule, and no character of a name stands there.
        have left := Token.ruleTokens_source fromImport after
        rw [none, List.nil_append] at left
        rw [none, left, List.append_nil]
        apply Ended.of_head
        intro d head
        have apart := rule?_apart named
        rw [head] at apart
        constructor <;> rintro rfl <;> exact absurd apart (by decide)
      · exact ended.append _
    · rw [scanFrom_of_rule named, ← stop, taken]
  · refine ⟨_, next, '@' :: rest, [], false, low ▸ ends, by omega, by simp, by simp, ?_, by rw [stop, length], ?_⟩
    · exact h.flagged_end (by simp)
    · rw [scanFrom_of_rule named, scanFrom_of_unclosed unclosed]
      simp [Scan.scanFrom, Token.tokensFrom, Scan.ofTokens]

theorem urlTokens?_ended {tokens : List Token} {more after : List Char}
    (read : Token.urlTokens? rest = some (tokens, more)) : Ended (Token.source tokens) after := by
  obtain ⟨opening, before, c, inside, arg, closing, rfl, _, _, _, argument⟩ := Token.exists_of_urlTokens? read
  obtain ⟨_, blanks, rfl, _⟩ := Token.argument?_shape argument
  have closes : Token.source [.plain (opening ++ before), arg, .plain (blanks ++ [')'])] =
      (opening ++ before ++ arg.text ++ blanks) ++ [')'] := by
    simp
  rw [closes]
  exact .of_last _ (by decide)

theorem At.keeps_url (h : At text i (c :: rest)) {tokens : List Token} {more : List Char}
    (read : Token.urlTokens? (c :: rest) = some (tokens, more)) (flag : Flagged text i false (c :: rest)) :
    Kept text i false c rest := by
  have opens := Token.isSome_urlOpening? read
  obtain ⟨whole, some⟩ := Token.urlTokens?_source read
  obtain ⟨a, found, reported⟩ := h.exists_argument read
  have letter := Token.letter_of_urlOpening? opens
  have noSlash : c ≠ '/' := by rcases letter with rfl | rfl <;> decide
  have noQuote : isQuote c = false := by rcases letter with rfl | rfl <;> decide
  have noRule : c ≠ '@' := by rcases letter with rfl | rfl <;> decide
  have low : lead c = c := lead_of_ascii (by rcases letter with rfl | rfl <;> decide)
  have apart : identBefore text i = .ok false := by
    obtain ⟨before, known, rfl | ⟨_, closed⟩⟩ := flag
    · exact known
    · simp [opens] at closed
  have ends := round_of_url (h.noComment noSlash) noQuote (fun isRule => absurd isRule noRule)
    (h.opensUrl_eq.trans opens) apart found
  refine ⟨_, _, Token.source tokens, more, false, low ▸ ends, ?_, whole.symm, some, ?_, rfl, ?_⟩
  · have := size_pos _ some
    omega
  · rw [← whole] at h
    exact h.flagged some (urlTokens?_ended read)
  · rw [Scan.scanFrom_step (.url rfl read), reported]

theorem At.keeps_char (h : At text i (c :: rest)) (noComment : c = '/' -> (gap .space (c :: rest)).1 = [])
    (noQuote : isQuote c = false) (noRule : c = '@' -> Lexeme.rule? rest = none)
    (noUrl : afterIdent = false -> Token.urlTokens? (c :: rest) = none)
    (flag : Flagged text i afterIdent (c :: rest)) : Kept text i afterIdent c rest := by
  obtain ⟨noBlock, noLine⟩ := Token.not_comment_of_gap_eq_nil noComment
  have comment : commentEnd? text i = none := by
    rw [h.commentEnd?_eq_none]
    intro inside
    constructor <;> intro same
    · exact noBlock inside (List.cons.inj same).1 (List.cons.inj same).2
    · exact noLine inside (List.cons.inj same).1 (List.cons.inj same).2
  have rule : lead c = '@' -> rule? text (i + 1) = none := by
    intro isRule
    obtain rfl := (lead_eq_iff (by decide)).mp isRule
    rw [(h.next_ascii (by decide)).rule?_eq, noRule rfl]
    rfl
  obtain ⟨before, known, same⟩ := flag
  have silent : opensUrl text i = true -> before = false -> argument? text (i + 4) = .ok none := by
    intro opens apart
    rw [h.opensUrl_eq] at opens
    rcases same with same | ⟨_, closed⟩
    · exact h.no_argument opens (noUrl (same.symm.trans apart))
    · simp [opens] at closed
  have ends := round_of_silence comment ((test_lead Blind.quote c).trans noQuote) rule known silent
  refine ⟨.empty, i + 1, [c], rest, isIdent c, ends, by omega, rfl, by simp, ?_, ?_, ?_⟩
  · exact ⟨isIdent c, by simpa using h.identBefore_eq, .inl rfl⟩
  · simpa using h.scanFrom_pass
  · exact Scan.scanFrom_plain (.char noComment noQuote noRule noUrl) i

theorem At.kept (h : At text i (c :: rest)) (flag : Flagged text i afterIdent (c :: rest)) :
    Kept text i afterIdent c rest := by
  obtain ⟨s, reads⟩ := Token.exists_reads afterIdent (List.cons_ne_nil c rest)
  cases reads with
  | comment taken =>
    cases comment : commentEnd? text i with
    | some next => exact h.keeps_comment comment
    | none =>
      rw [h.commentEnd?_eq_none] at comment
      refine absurd ?_ taken
      apply Token.gap_slash_eq_nil
      · rintro more rfl
        exact (comment more).1 rfl
      · rintro more rfl
        exact (comment more).2 rfl
  | string quote closed => exact h.keeps_string quote
  | openString quote unclosed => exact h.keeps_string quote
  | rule named => exact h.keeps_rule named
  | url apart read =>
    subst apart
    exact h.keeps_url read flag
  | char noComment noQuote noRule noUrl => exact h.keeps_char noComment noQuote noRule noUrl flag

theorem At.scanFrom_eq {afterIdent : Bool} {rest : List Char} {i : Nat} (h : At text i rest)
    (flag : Flagged text i afterIdent rest) : scanFrom text i = .ok (Scan.scanFrom afterIdent i rest) := by
  cases rest with
  | nil =>
    rw [scanFrom_of_none h.byte?_nil]
    simp [Scan.scanFrom, Token.tokensFrom, Scan.ofTokens]
  | cons c rest =>
    obtain ⟨found, next, taken, after, behind, keeps⟩ := h.kept flag
    -- A round takes a character at least, so less of the text is left for the later ones.
    have shorter : after.length < (c :: rest).length := by
      have taken := List.length_pos_iff.mpr keeps.some
      rw [keeps.split, List.length_append]
      omega
    have there : At text (i + size taken) after := by
      rw [keeps.split] at h
      exact h.behind
    have later := there.scanFrom_eq keeps.flagged
    rw [← keeps.resumes] at later
    rw [scanFrom_of_round h.byte?_cons keeps.ends keeps.goesOn later, keeps.reports]
termination_by rest.length

theorem scan_eq (text : List Char) : scan text = .ok (Scan.scanFrom false 0 text) :=
  (At.start text).scanFrom_eq ⟨false, rfl, .inl rfl⟩

end ByteScan

end StylesheetImports
