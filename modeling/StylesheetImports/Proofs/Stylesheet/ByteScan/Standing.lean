import Mathlib.Data.List.Induction
import StylesheetImports.Proofs.Stylesheet.ByteScan.Basic
import StylesheetImports.Proofs.Stylesheet.Reading
import StylesheetImports.Proofs.Text.Offset
import StylesheetImports.Proofs.Text.Pieces

set_option autoImplicit false

namespace StylesheetImports

open Utf8 Lexeme

-- Characters beyond ASCII are all the same to a test.
def Blind {A : Type} (test : Char -> A) : Prop :=
  ∀ c d : Char, 0x80 <= c.toNat -> 0x80 <= d.toNat -> test c = test d

namespace Blind

theorem ne_of_high {c e : Char} (high : 0x80 <= c.toNat) (ascii : e.toNat < 0x80) : c ≠ e := by
  rintro rfl
  omega

theorem space : Blind isSpace := by
  have none {c : Char} (high : 0x80 <= c.toNat) : isSpace c = false := by
    by_contra blank
    rcases eq_of_isSpace (by simpa using blank) with rfl | rfl | rfl | rfl | rfl <;> exact absurd high (by decide)
  exact fun c d hc hd => (none hc).trans (none hd).symm

theorem quote : Blind isQuote := by
  have none {c : Char} (high : 0x80 <= c.toNat) : isQuote c = false := by
    by_contra blank
    rcases eq_of_isQuote (by simpa using blank) with rfl | rfl <;> exact absurd high (by decide)
  exact fun c d hc hd => (none hc).trans (none hd).symm

theorem ident : Blind isIdent := by
  intro c d hc hd
  simp [isIdent, hc, hd]

theorem endsWord : Blind endsWord := by
  intro c d hc hd
  have same (e : Char) (ascii : e.toNat < 0x80) : c ≠ e ∧ d ≠ e := ⟨ne_of_high hc ascii, ne_of_high hd ascii⟩
  simp [Lexeme.endsWord, space c d hc hd, same ';' (by decide), same ',' (by decide), same '\x7b' (by decide),
    same '\x7d' (by decide)]

theorem endsRule : Blind endsRule := by
  intro c d hc hd
  have same (e : Char) (ascii : e.toNat < 0x80) : c ≠ e ∧ d ≠ e := ⟨ne_of_high hc ascii, ne_of_high hd ascii⟩
  simp [Lexeme.endsRule, endsWord c d hc hd, same '#' (by decide), same '$' (by decide)]

theorem next (depth : Depth) : Blind depth.next := by
  intro c d hc hd
  have same (e : Char) (ascii : e.toNat < 0x80) : c ≠ e ∧ d ≠ e := ⟨ne_of_high hc ascii, ne_of_high hd ascii⟩
  simp [Depth.next, same '(' (by decide), same ')' (by decide), same '\n' (by decide), same '\x7d' (by decide)]

theorem inLine : Blind ByteScan.inLine := by
  intro c d hc hd
  simp [ByteScan.inLine, ne_of_high hc (e := '\n') (by decide), ne_of_high hd (e := '\n') (by decide)]

end Blind

namespace ByteScan

def lead (c : Char) : Char :=
  Char.ofNat ((String.utf8EncodeChar c).headD 0).toNat

theorem toNat_byte (b : UInt8) : (Char.ofNat b.toNat).toNat = b.toNat :=
  toNat_ofNat_of_scalar (by have := b.toNat_lt; omega)

theorem encodeChar_ascii {c : Char} (ascii : c.toNat < 0x80) : String.utf8EncodeChar c = [UInt8.ofNat c.toNat] := by
  simpa [encode] using encode_singleton_ascii ascii

theorem lead_of_ascii {c : Char} (ascii : c.toNat < 0x80) : lead c = c := by
  have small : c.toNat % 256 = c.toNat := Nat.mod_eq_of_lt (by omega)
  rw [lead, encodeChar_ascii ascii]
  simp [small, Char.ofNat_toNat]

theorem high_of_mem {c : Char} (high : 0x80 <= c.toNat) {b : UInt8} (mem : b ∈ String.utf8EncodeChar c) :
    0x80 <= (Char.ofNat b.toNat).toNat := by
  rw [toNat_byte]
  by_contra ascii
  have same := eq_of_mem_utf8EncodeChar mem (by omega)
  omega

theorem exists_encodeChar (c : Char) : ∃ b rest, String.utf8EncodeChar c = b :: rest ∧ lead c = Char.ofNat b.toNat := by
  obtain ⟨b, rest, bytes, _⟩ := head_utf8EncodeChar c
  exact ⟨b, rest, bytes, by rw [lead, bytes, List.headD_cons]⟩

theorem high_lead {c : Char} (high : 0x80 <= c.toNat) : 0x80 <= (lead c).toNat := by
  obtain ⟨b, rest, bytes, same⟩ := exists_encodeChar c
  rw [same]
  exact high_of_mem high (bytes ▸ List.mem_cons_self)

theorem test_lead {A : Type} {test : Char -> A} (blind : Blind test) (c : Char) : test (lead c) = test c := by
  by_cases ascii : c.toNat < 0x80
  next => rw [lead_of_ascii ascii]
  next => exact blind _ _ (high_lead (by omega)) (by omega)

theorem lead_eq_iff {c e : Char} (ascii : e.toNat < 0x80) : lead c = e ↔ c = e := by
  by_cases low : c.toNat < 0x80
  next => rw [lead_of_ascii low]
  next =>
    have high : 0x80 <= c.toNat := by omega
    simp [Blind.ne_of_high high ascii, Blind.ne_of_high (high_lead high) ascii]

/-- At the byte `i` of a text stands `rest`. -/
def At (text : List Char) (i : Nat) (rest : List Char) : Prop :=
  ∃ before, text = before ++ rest ∧ i = size before

variable {text rest : List Char} {i : Nat} {c : Char}

theorem At.start (text : List Char) : At text 0 text :=
  ⟨[], rfl, rfl⟩

theorem At.behind {taken : List Char} (h : At text i (taken ++ rest)) : At text (i + size taken) rest := by
  obtain ⟨before, rfl, rfl⟩ := h
  exact ⟨before ++ taken, by simp, by simp⟩

theorem At.next (h : At text i (c :: rest)) : At text (i + c.utf8Size) rest := by
  have one : At text i ([c] ++ rest) := h
  exact one.behind

theorem At.size_eq (h : At text i rest) : size text = i + size rest := by
  obtain ⟨before, rfl, rfl⟩ := h
  simp

theorem utf8Size_ascii (ascii : c.toNat < 0x80) : c.utf8Size = 1 := by
  have length := congrArg List.length (encodeChar_ascii ascii)
  simpa using length

theorem At.next_ascii (h : At text i (c :: rest)) (ascii : c.toNat < 0x80) : At text (i + 1) rest := by
  have there := h.next
  rwa [utf8Size_ascii ascii] at there

theorem At.byte?_end (h : At text i []) (k : Nat) : byte? text (i + k) = none := by
  have length := h.size_eq
  rw [← Option.not_isSome_iff_eq_none, byte?_isSome]
  rw [size_nil] at length
  omega

theorem At.getElem?_encode (h : At text i rest) (k : Nat) : (encode text)[i + k]? = (encode rest)[k]? := by
  obtain ⟨before, rfl, rfl⟩ := h
  rw [getElem?_encode_right (by omega), Nat.add_sub_cancel_left]

theorem At.byte?_nil (h : At text i []) : byte? text i = none :=
  h.byte?_end 0

theorem At.byte?_cons (h : At text i (c :: rest)) : byte? text i = some (lead c) := by
  obtain ⟨b, tail, bytes, same⟩ := exists_encodeChar c
  have read := h.getElem?_encode 0
  rw [Nat.add_zero, encode_cons, bytes] at read
  rw [byte?, read, same]
  rfl

theorem At.byte?_eq_some (h : At text i rest) {e : Char} (ascii : e.toNat < 0x80) :
    byte? text i = some e ↔ rest.head? = some e := by
  cases rest with
  | nil => simp [h.byte?_nil]
  | cons c rest => rw [h.byte?_cons, Option.some.injEq, lead_eq_iff ascii, List.head?_cons, Option.some.injEq]

theorem At.exists_cons (h : At text i rest) {e : Char} (ascii : e.toNat < 0x80) (read : byte? text i = some e) :
    ∃ more, rest = e :: more ∧ At text (i + 1) more := by
  obtain ⟨more, rfl⟩ := List.head?_eq_some_iff.mp ((h.byte?_eq_some ascii).mp read)
  exact ⟨more, rfl, h.next_ascii ascii⟩

theorem At.byte?_inside (h : At text i (c :: rest)) {k : Nat} (inside : k < c.utf8Size) :
    ∃ d, byte? text (i + k) = some d ∧ (c.toNat < 0x80 ∧ d = c ∨ 0x80 <= c.toNat ∧ 0x80 <= d.toNat) := by
  by_cases ascii : c.toNat < 0x80
  next =>
    have first : k = 0 := by
      rw [utf8Size_ascii ascii] at inside
      omega
    subst first
    exact ⟨c, by rw [Nat.add_zero, h.byte?_cons, lead_of_ascii ascii], .inl ⟨ascii, rfl⟩⟩
  next =>
    have length : (String.utf8EncodeChar c).length = c.utf8Size := by simp
    have within : k < (String.utf8EncodeChar c).length := by omega
    have read := h.getElem?_encode k
    rw [encode_cons, List.getElem?_append_left within, List.getElem?_eq_getElem within] at read
    have high : 0x80 <= c.toNat := by omega
    exact ⟨_, by rw [byte?, read, Option.map_some], .inr ⟨high, high_of_mem high (List.getElem_mem within)⟩⟩

theorem At.exists_last (h : At text i (c :: rest)) {A : Type} {test : Char -> A} (blind : Blind test) :
    ∃ j d, i + c.utf8Size = j + 1 ∧ byte? text j = some d ∧ test d = test c := by
  have some := c.utf8Size_pos
  obtain ⟨d, read, same⟩ := h.byte?_inside (k := c.utf8Size - 1) (by omega)
  refine ⟨i + (c.utf8Size - 1), d, by omega, read, ?_⟩
  rcases same with ⟨_, rfl⟩ | ⟨high, high'⟩
  · rfl
  · exact blind _ _ high' high

theorem At.pass (h : At text i (c :: rest)) {A : Type} {f : Nat -> A}
    (steps : 0x80 <= c.toNat -> ∀ j d, byte? text j = some d -> 0x80 <= d.toNat -> f j = f (j + 1)) :
    f (i + 1) = f (i + c.utf8Size) := by
  -- Along the bytes behind the first one, all of which belong to this character.
  have along (k : Nat) (inside : 1 + k <= c.utf8Size) : f (i + 1) = f (i + (1 + k)) := by
    induction k with
    | zero => rfl
    | succ k ih =>
      obtain ⟨d, read, ⟨ascii, _⟩ | ⟨high, high'⟩⟩ := h.byte?_inside (k := 1 + k) (by omega)
      · have := utf8Size_ascii ascii
        omega
      · exact (ih (by omega)).trans (steps high _ d read high')
  have some := c.utf8Size_pos
  have whole := along (c.utf8Size - 1) (by omega)
  rwa [Nat.add_sub_cancel' some] at whole

theorem cut_middle {before middle after : List Char} {start stop : Nat} (h : text = before ++ (middle ++ after))
    (hstart : start = size before) (hstop : stop = size before + size middle) :
    cut text { start, stop } = .ok middle := by
  rw [cut, h, slice?_append before middle after hstart hstop]

theorem At.passed_eq (h : At text i rest) {passes : Char -> Bool} (blind : Blind passes) :
    passed text passes i = i + size (rest.takeWhile passes) := by
  induction rest generalizing i with
  | nil =>
    rw [passed]
    split
    next => rfl
    next read => simp [h.byte?_nil] at read
  | cons c rest ih =>
    rw [passed_of_byte? text h.byte?_cons, test_lead blind, List.takeWhile_cons]
    split
    next pass =>
      have whole := h.pass (f := passed text passes) fun high j d read high' => by
        rw [passed_of_byte? text read, blind d c high' high, if_pos pass]
      rw [whole, ih h.next, size_cons, Nat.add_assoc]
    next => rfl

theorem stringEnd?_of_byte? {quote : Char} (read : byte? text i = some c) :
    stringEnd? text quote i =
      if c = '\\' then stringEnd? text quote (i + 2)
      else if c = '\n' then none
      else if c = quote then some (i + 1)
      else stringEnd? text quote (i + 1) := by
  rw [stringEnd?]
  split <;> simp_all

theorem stringEnd?_of_none {quote : Char} (read : byte? text i = none) : stringEnd? text quote i = none := by
  rw [stringEnd?]
  split <;> simp_all

theorem stringEnd?_pass {quote : Char} (ascii : quote.toNat < 0x80) (h : At text i (c :: rest)) :
    stringEnd? text quote (i + 1) = stringEnd? text quote (i + c.utf8Size) := by
  refine h.pass (f := stringEnd? text quote) fun _ j d read high => ?_
  rw [stringEnd?_of_byte? read, if_neg (Blind.ne_of_high high (by decide)), if_neg (Blind.ne_of_high high (by decide)),
    if_neg (Blind.ne_of_high high ascii)]

theorem ascii_of_isSpace (isSpace : isSpace c = true) : c.toNat < 0x80 := by
  rcases eq_of_isSpace isSpace with rfl | rfl | rfl | rfl | rfl <;> decide

theorem ascii_of_isQuote {quote : Char} (isQuote : isQuote quote = true) : quote.toNat < 0x80 := by
  rcases eq_of_isQuote isQuote with rfl | rfl <;> decide

theorem At.stringEnd?_eq {quote : Char} (isQuote : isQuote quote = true) (h : At text i rest) :
    stringEnd? text quote i = (quoted quote rest).map fun (body, _) => i + size body + 1 := by
  have ascii := ascii_of_isQuote isQuote
  have backslash : ('\\' : Char).utf8Size = 1 := utf8Size_ascii (by decide)
  induction rest using quoted.induct quote generalizing i with
  | case1 => exact stringEnd?_of_none h.byte?_nil
  | case2 c rest ih =>
    -- The byte behind the backslash is skipped, and with it the character that it belongs to.
    have inside := h.next_ascii (by decide)
    rw [stringEnd?_of_byte? h.byte?_cons, if_pos ((lead_eq_iff (by decide)).mpr rfl), stringEnd?_pass ascii inside,
      ih inside.next, quoted, Option.map_map]
    refine congrArg (Option.map · _) (funext ?_)
    rintro ⟨body, _⟩
    simp only [Function.comp_apply, size_cons, backslash]
    omega
  | case3 rest =>
    rw [stringEnd?_of_byte? h.byte?_cons, lead_of_ascii (by decide), if_neg (by decide), if_pos rfl, quoted] <;> simp
  | case4 rest noEscape noBreak =>
    have noBackslash : quote ≠ '\\' := by rcases eq_of_isQuote isQuote with rfl | rfl <;> decide
    rw [stringEnd?_of_byte? h.byte?_cons, lead_of_ascii ascii, if_neg noBackslash, if_neg noBreak, if_pos rfl,
      quoted.eq_3 _ _ _ noEscape, if_neg noBreak, if_pos rfl]
    rfl
  | case5 c rest noEscape noBreak noQuote ih =>
    rw [quoted.eq_3 _ _ _ noEscape, if_neg noBreak, if_neg noQuote, stringEnd?_of_byte? h.byte?_cons]
    simp only [lead_eq_iff ascii, lead_eq_iff (c := c) (e := '\\') (by decide),
      lead_eq_iff (c := c) (e := '\n') (by decide), if_neg noBreak, if_neg noQuote]
    split
    next isBackslash =>
      -- A backslash that nothing follows: the loop goes on behind the end of the text.
      subst isBackslash
      cases rest with
      | nil => rw [stringEnd?_of_none ((h.next_ascii (by decide)).byte?_end 1)]; rfl
      | cons d rest => exact absurd rfl (noEscape d rest rfl)
    next =>
      rw [stringEnd?_pass ascii h, ih h.next, Option.map_map]
      refine congrArg (Option.map · _) (funext ?_)
      rintro ⟨body, _⟩
      simp only [Function.comp_apply, size_cons]
      omega

theorem blockEnd_step (goesOn : ¬(byte? text i = some '*' ∧ byte? text (i + 1) = some '/')) :
    blockEnd text i = blockEnd text (i + 1) := by
  rw [blockEnd, if_neg goesOn]
  split
  next => rfl
  next last => rw [blockEnd, if_neg (by omega)]

-- No character of a name stands at the end of what is taken, where a `url(` opens behind it.
def Ended (taken rest : List Char) : Prop :=
  (urlOpening? rest).isSome = true -> taken.getLast?.map isIdent = some false

theorem Ended.of_last (taken : List Char) {rest : List Char} (apart : isIdent c = false) :
    Ended (taken ++ [c]) rest := by
  intro _
  simp [apart]

theorem Ended.append {more rest : List Char} (h : Ended more rest) (before : List Char) :
    Ended (before ++ more) rest := by
  intro opens
  have last := h opens
  cases more with
  | nil => simp at last
  | cons d more => rwa [List.getLast?_append_of_ne_nil _ (by simp)]

theorem Ended.of_head {taken : List Char} (h : ∀ d, rest.head? = some d -> d ≠ 'u' ∧ d ≠ 'U') : Ended taken rest := by
  intro opens
  cases rest with
  | nil => simp [urlOpening?] at opens
  | cons d rest =>
    obtain ⟨noSmall, noLarge⟩ := h d rfl
    exact absurd (Token.letter_of_urlOpening? opens) (by simp [noSmall, noLarge])

theorem At.exists_blockEnd (h : At text i rest) :
    ∃ body after, rest = body ++ after ∧ blockEnd text i = i + size body ∧
      gap .block rest = (body ++ (gap .space after).1, (gap .space after).2) ∧
        Ended body after := by
  induction rest generalizing i with
  | nil =>
    refine ⟨[], [], rfl, ?_, rfl, .of_head (by simp)⟩
    have length := h.size_eq
    rw [blockEnd, if_neg (by rw [size_nil] at length; omega), length]
  | cons c rest ih =>
    by_cases ends : c = '*' ∧ rest.head? = some '/'
    next =>
      obtain ⟨rfl, slash⟩ := ends
      obtain ⟨after, rfl⟩ := List.head?_eq_some_iff.mp slash
      have inside := h.next_ascii (by decide)
      have star : byte? text i = some '*' := h.byte?_cons.trans (congrArg some (lead_of_ascii (by decide)))
      have slash : byte? text (i + 1) = some '/' :=
        inside.byte?_cons.trans (congrArg some (lead_of_ascii (by decide)))
      refine ⟨['*', '/'], after, rfl, ?_, by simp [gap], .of_last ['*'] (by decide)⟩
      rw [blockEnd, if_pos (lt_size slash), if_pos ⟨star, slash⟩]
      simp [utf8Size_ascii (c := '*') (by decide), utf8Size_ascii (c := '/') (by decide)]
    next =>
      have noEnd : ∀ after, c = '*' -> rest = '/' :: after -> False := fun after star slash =>
        ends ⟨star, slash ▸ rfl⟩
      have goesOn : ¬(byte? text i = some '*' ∧ byte? text (i + 1) = some '/') := by
        rintro ⟨star, slash⟩
        obtain rfl : c = '*' := by simpa using (h.byte?_eq_some (by decide)).mp star
        exact ends ⟨rfl, ((h.next_ascii (by decide)).byte?_eq_some (by decide)).mp slash⟩
      obtain ⟨body, after, rfl, last, gap_, ended⟩ := ih h.next
      refine ⟨c :: body, after, rfl, ?_, by rw [gap.eq_6 _ _ noEnd, gap_]; rfl, ended.append [c]⟩
      have whole := h.pass (f := blockEnd text) fun _ j d read high => blockEnd_step fun star =>
          Blind.ne_of_high high (e := '*') (by decide) (Option.some.inj (read.symm.trans star.1))
      rw [blockEnd_step goesOn, whole, last, size_cons, Nat.add_assoc]

theorem gap_takeWhile (rest : List Char) :
    gap .space rest =
      (rest.takeWhile isSpace ++ (gap .space (rest.dropWhile isSpace)).1, (gap .space (rest.dropWhile isSpace)).2) := by
  induction rest with
  | nil => rfl
  | cons c rest ih =>
    rw [List.takeWhile_cons, List.dropWhile_cons]
    split
    next blank =>
      rw [gap_space_cons (ne_slash_of_isSpace blank), if_pos blank, ih]
      rfl
    next => rfl

theorem gap_none (noBlank : ∀ d, rest.head? = some d -> isSpace d = false)
    (noComment : ∀ inside, rest ≠ '/' :: '*' :: inside ∧ rest ≠ '/' :: '/' :: inside) :
    gap .space rest = ([], rest) := by
  cases rest with
  | nil => rfl
  | cons c rest =>
    rw [gap.eq_4 c rest, if_neg (by simp [noBlank c rfl])]
    · rintro inside rfl rfl
      exact (noComment inside).1 rfl
    · rintro inside rfl rfl
      exact (noComment inside).2 rfl

theorem gap_line_eq (rest : List Char) :
    gap .line rest =
      (rest.takeWhile inLine ++ (gap .space (rest.dropWhile inLine)).1, (gap .space (rest.dropWhile inLine)).2) := by
  induction rest with
  | nil => rfl
  | cons c rest ih =>
    by_cases line : c = '\n'
    next =>
      subst line
      simp [gap, inLine, gap_space_cons (c := '\n') (by decide), isSpace]
    next =>
      have inside : inLine c = true := by simpa [inLine] using line
      rw [List.takeWhile_cons, List.dropWhile_cons, if_pos inside, if_pos inside]
      simp [gap, line, ih]

theorem At.exists_commentEnd? (h : At text i rest) {next : Nat} (ends : commentEnd? text i = some next) :
    ∃ body after, rest = '/' :: body ++ after ∧ next = i + size ('/' :: body) ∧
      gap .space rest = ('/' :: body ++ (gap .space after).1, (gap .space after).2) ∧
        Ended ('/' :: body) after := by
  unfold commentEnd? at ends
  have low : (('/' : Char).utf8Size = 1) ∧ (('*' : Char).utf8Size = 1) :=
    ⟨utf8Size_ascii (by decide), utf8Size_ascii (by decide)⟩
  split_ifs at ends with block line
  · obtain ⟨inside, rfl, second⟩ := h.exists_cons (by decide) block.1
    obtain ⟨body, rfl, third⟩ := second.exists_cons (by decide) block.2
    obtain ⟨body, after, rfl, last, gap_, ended⟩ := third.exists_blockEnd
    refine ⟨'*' :: body, after, rfl, ?_, by rw [gap, gap_]; rfl, ended.append ['/', '*']⟩
    rw [← Option.some.inj ends, last]
    simp only [size_cons, low]
    omega
  · obtain ⟨inside, rfl, second⟩ := h.exists_cons (by decide) line.1
    obtain ⟨body, rfl, _⟩ := second.exists_cons (by decide) line.2
    refine ⟨'/' :: body.takeWhile inLine, body.dropWhile inLine, ?_, ?_, ?_, ?_⟩
    · simp [List.takeWhile_append_dropWhile]
    · rw [← Option.some.inj ends, h.passed_eq Blind.inLine]
      simp [inLine]
    · rw [gap, gap_line_eq]
      rfl
    · refine .of_head fun d head => ?_
      have stop := List.head?_dropWhile_not inLine body
      rw [head] at stop
      obtain rfl : d = '\n' := by simpa [inLine] using stop
      decide

theorem At.commentEnd?_eq_none (h : At text i rest) :
    commentEnd? text i = none ↔ ∀ inside, rest ≠ '/' :: '*' :: inside ∧ rest ≠ '/' :: '/' :: inside := by
  have second {e : Char} (ascii : e.toNat < 0x80) :
      byte? text i = some '/' ∧ byte? text (i + 1) = some e ↔ ∃ inside, rest = '/' :: e :: inside := by
    constructor
    · rintro ⟨first, read⟩
      obtain ⟨more, rfl, there⟩ := h.exists_cons (by decide) first
      obtain ⟨inside, rfl, _⟩ := there.exists_cons ascii read
      exact ⟨inside, rfl⟩
    · rintro ⟨inside, rfl⟩
      exact ⟨(h.byte?_eq_some (by decide)).mpr rfl, ((h.next_ascii (by decide)).byte?_eq_some ascii).mpr rfl⟩
  unfold commentEnd?
  split_ifs with block line
  · obtain ⟨inside, same⟩ := (second (by decide)).mp block
    simp [same]
  · obtain ⟨inside, same⟩ := (second (by decide)).mp line
    simp [same]
  · have noComment (inside : List Char) : rest ≠ '/' :: '*' :: inside ∧ rest ≠ '/' :: '/' :: inside :=
      ⟨fun same => block ((second (by decide)).mpr ⟨inside, same⟩),
        fun same => line ((second (by decide)).mpr ⟨inside, same⟩)⟩
    exact ⟨fun _ => noComment, fun _ => rfl⟩

theorem gapEnd_of_comment {next : Nat} (ends : commentEnd? text (passed text isSpace i) = some next) :
    gapEnd text i = gapEnd text next := by
  rw [gapEnd]
  split <;> simp_all

theorem gapEnd_of_none (none : commentEnd? text (passed text isSpace i) = none) :
    gapEnd text i = passed text isSpace i := by
  rw [gapEnd]
  split <;> simp_all

theorem At.gapEnd_eq {rest : List Char} {i : Nat} (h : At text i rest) :
    gapEnd text i = i + size (gap .space rest).1 := by
  have blanks := h.passed_eq Blind.space
  have split : rest.takeWhile isSpace ++ rest.dropWhile isSpace = rest := List.takeWhile_append_dropWhile
  have first : gap .space rest = (rest.takeWhile isSpace ++ (gap .space (rest.dropWhile isSpace)).1,
      (gap .space (rest.dropWhile isSpace)).2) := gap_takeWhile rest
  have there : At text (i + size (rest.takeWhile isSpace)) (rest.dropWhile isSpace) := by
    rw [← split] at h
    exact h.behind
  cases ends : commentEnd? text (passed text isSpace i) with
  | none =>
    rw [gapEnd_of_none ends, blanks, first]
    rw [blanks, there.commentEnd?_eq_none] at ends
    rw [gap_none (fun d head => ?_) ends, List.append_nil]
    have stop := List.head?_dropWhile_not isSpace rest
    rw [head] at stop
    simpa using stop
  | some next =>
    -- The gap goes on behind the comment, where less of the text is left.
    rw [gapEnd_of_comment ends]
    rw [blanks] at ends
    obtain ⟨body, after, same, last, gap_, _⟩ := there.exists_commentEnd? ends
    have shorter : after.length < rest.length := by
      rw [← split, same]
      simp
      omega
    rw [same] at there
    rw [last, there.behind.gapEnd_eq, first, gap_]
    simp only [size_append]
    omega
termination_by rest.length

theorem bareEnd?_of_none {depth : Depth} (read : byte? text i = none) : bareEnd? text depth i = none := by
  rw [bareEnd?]
  split <;> simp_all

theorem bareEnd?_of_byte? {depth : Depth} (read : byte? text i = some c) :
    bareEnd? text depth i =
      if c = '\\' then bareEnd? text depth (i + 2)
      else if c = '#' ∧ byte? text (i + 1) = some '\x7b' then
        bareEnd? text { depth with braces := depth.braces + 1 } (i + 2)
      else
        match depth.next c with
        | .goOn deeper => bareEnd? text deeper (i + 1)
        | .close => some i
        | .broken => none := by
  rw [bareEnd?]
  split
  next none => simp [none] at read
  next here =>
    obtain rfl := Option.some.inj (here.symm.trans read)
    rfl

theorem next_of_high {depth : Depth} (high : 0x80 <= c.toNat) : depth.next c = .goOn depth := by
  have apart (e : Char) (ascii : e.toNat < 0x80) : c ≠ e := Blind.ne_of_high high ascii
  obtain ⟨braces, parens⟩ := depth
  cases braces <;> cases parens <;>
    simp [Depth.next, apart '(' (by decide), apart ')' (by decide), apart '\n' (by decide), apart '\x7d' (by decide)]

theorem bareEnd?_pass {depth : Depth} (h : At text i (c :: rest)) :
    bareEnd? text depth (i + 1) = bareEnd? text depth (i + c.utf8Size) := by
  refine h.pass (f := bareEnd? text depth) fun _ j d read high => ?_
  have apart (e : Char) (ascii : e.toNat < 0x80) : d ≠ e := Blind.ne_of_high high ascii
  rw [bareEnd?_of_byte? read, if_neg (apart _ (by decide)), if_neg fun hash => apart _ (by decide) hash.1,
    next_of_high high]

theorem At.no_brace (h : At text i (c :: rest)) (noOpen : ∀ more, c = '#' -> rest = '\x7b' :: more -> False) :
    ¬(lead c = '#' ∧ byte? text (i + 1) = some '\x7b') := by
  rintro ⟨isHash, brace⟩
  obtain rfl := (lead_eq_iff (by decide)).mp isHash
  obtain ⟨more, same, _⟩ := (h.next_ascii (by decide)).exists_cons (by decide) brace
  exact noOpen more rfl same

theorem At.bareEnd?_eq {depth : Depth} (h : At text i rest) :
    bareEnd? text depth i = (bareArgument depth rest).map fun (arg, _) => i + size arg := by
  have low : ('\\' : Char).utf8Size = 1 ∧ ('#' : Char).utf8Size = 1 ∧ ('\x7b' : Char).utf8Size = 1 :=
    ⟨utf8Size_ascii (by decide), utf8Size_ascii (by decide), utf8Size_ascii (by decide)⟩
  induction depth, rest using bareArgument.induct generalizing i with
  | case1 depth => exact bareEnd?_of_none h.byte?_nil
  | case2 depth c rest ih =>
    have inside := h.next_ascii (by decide)
    rw [bareEnd?_of_byte? h.byte?_cons, if_pos ((lead_eq_iff (by decide)).mpr rfl), bareEnd?_pass inside,
      ih inside.next, bareArgument, Option.map_map]
    refine congrArg (Option.map · _) (funext ?_)
    rintro ⟨arg, _⟩
    simp only [Function.comp_apply, size_cons, low]
    omega
  | case3 depth rest ih =>
    have brace := h.next_ascii (by decide)
    have opens : byte? text (i + 1) = some '\x7b' := (brace.byte?_eq_some (by decide)).mpr rfl
    rw [bareEnd?_of_byte? h.byte?_cons, lead_of_ascii (by decide), if_neg (by decide), if_pos ⟨rfl, opens⟩,
      ih (brace.next_ascii (by decide)), bareArgument, Option.map_map]
    refine congrArg (Option.map · _) (funext ?_)
    rintro ⟨arg, _⟩
    simp only [Function.comp_apply, size_cons, low]
    omega
  | case4 depth c rest noEscape noOpen deeper next ih =>
    rw [bareEnd?_of_byte? h.byte?_cons, if_neg (h.no_brace noOpen), test_lead (Blind.next depth), next,
      bareArgument.eq_4 depth c rest noEscape noOpen, next]
    simp only [Option.map_map]
    by_cases isBackslash : c = '\\'
    next =>
      -- A backslash that nothing follows: the loop goes on behind the end of the text.
      subst isBackslash
      cases rest with
      | nil =>
        rw [if_pos (lead_of_ascii (by decide)), bareEnd?_of_none ((h.next_ascii (by decide)).byte?_end 1)]
        rfl
      | cons d rest => exact absurd rfl (noEscape d rest rfl)
    next =>
      rw [if_neg fun same => isBackslash ((lead_eq_iff (by decide)).mp same), bareEnd?_pass h, ih h.next]
      refine congrArg (Option.map · _) (funext ?_)
      rintro ⟨arg, _⟩
      simp only [Function.comp_apply, size_cons]
      omega
  | case5 depth c rest noEscape noOpen next =>
    obtain rfl := Depth.eq_of_next_close next
    rw [bareEnd?_of_byte? h.byte?_cons, lead_of_ascii (by decide), if_neg (by decide), if_neg (by simp), next,
      bareArgument.eq_4 depth _ rest noEscape noOpen, next]
    rfl
  | case6 depth c rest noEscape noOpen next =>
    have noBackslash : c ≠ '\\' := by
      rintro rfl
      obtain ⟨braces, parens⟩ := depth
      cases braces <;> cases parens <;> simp [Depth.next] at next
    rw [bareEnd?_of_byte? h.byte?_cons, if_neg (h.no_brace noOpen), test_lead (Blind.next depth), next,
      bareArgument.eq_4 depth c rest noEscape noOpen, next,
      if_neg fun same => noBackslash ((lead_eq_iff (by decide)).mp same)]
    rfl

theorem trimEnd_concat (arg : List Char) (c : Char) :
    trimEnd (arg ++ [c]) = if isSpace c then trimEnd arg else arg ++ [c] := by
  unfold trimEnd
  split <;> simp_all

theorem At.trimmed_eq {arg : List Char} (h : At text i (arg ++ rest)) :
    trimmed text i (i + size arg) = .ok (i + size (trimEnd arg)) := by
  induction arg using List.reverseRec generalizing rest with
  | nil => cases i <;> simp [trimmed, trimEnd]
  | append_singleton inner c ih =>
    rw [List.append_assoc] at h
    obtain ⟨j, d, same, read, blank⟩ := h.behind.exists_last Blind.space
    have some := c.utf8Size_pos
    have stop : i + size (inner ++ [c]) = j + 1 := by
      rw [← same]
      simp [Nat.add_assoc]
    rw [stop, trimmed, if_pos (by omega), trimEnd_concat]
    simp only [read, blank]
    split
    next space =>
      have before : j = i + size inner := by
        rw [utf8Size_ascii (ascii_of_isSpace space)] at same
        omega
      rw [before, ih h]
    next => rw [stop]

end ByteScan

end StylesheetImports
