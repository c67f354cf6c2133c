import Mathlib.Data.List.TakeWhile
import StylesheetImports.Stylesheet.Token

set_option autoImplicit false

namespace StylesheetImports

namespace Lexeme

def isMark (c : Char) : Bool :=
  c = '(' || c = '@' || c = ','

inductive Alike : List Char -> List Char -> Prop where
  | same (cs : List Char) : Alike cs cs
  | mark {c : Char} (h : isMark c = true) (cs ds : List Char) : Alike (c :: cs) (c :: ds)
  | cons (c : Char) {cs ds : List Char} (h : Alike cs ds) : Alike (c :: cs) (c :: ds)

namespace Alike

theorem symm {cs ds : List Char} (h : Alike cs ds) : Alike ds cs := by
  induction h with
  | same cs => exact same cs
  | mark h cs ds => exact mark h ds cs
  | cons c _ ih => exact cons c ih

theorem append {cs ds : List Char} (h : Alike cs ds) (before : List Char) :
    Alike (before ++ cs) (before ++ ds) := by
  induction before with
  | nil => exact h
  | cons c before ih => exact cons c ih

theorem eq_nil {ds : List Char} (h : Alike [] ds) : ds = [] := by
  cases h
  rfl

theorem cons_left {c : Char} {cs ds : List Char} (h : Alike (c :: cs) ds) :
    ∃ rest, ds = c :: rest ∧ (isMark c = true ∨ Alike cs rest) := by
  cases h with
  | same => exact ⟨cs, rfl, .inr (same cs)⟩
  | mark h cs rest => exact ⟨rest, rfl, .inl h⟩
  | cons c h => exact ⟨_, rfl, .inr h⟩

theorem cons_of_not_mark {c : Char} {cs ds : List Char} (h : Alike (c :: cs) ds) (hc : isMark c = false) :
    ∃ rest, ds = c :: rest ∧ Alike cs rest := by
  obtain ⟨rest, eq, marked | alike⟩ := h.cons_left
  · exact absurd marked (by simp [hc])
  · exact ⟨rest, eq, alike⟩

theorem head? {cs ds : List Char} (h : Alike cs ds) : ds.head? = cs.head? := by
  cases h <;> rfl

end Alike

theorem eq_of_isSpace {c : Char} (h : isSpace c = true) :
    c = ' ' ∨ c = '\t' ∨ c = '\n' ∨ c = '\x0c' ∨ c = '\r' := by
  simpa [isSpace, or_assoc] using h

theorem eq_of_isQuote {c : Char} (h : isQuote c = true) : c = '"' ∨ c = '\'' := by
  simpa [isQuote] using h

theorem not_isSpace_of_isQuote {c : Char} (h : isQuote c = true) : isSpace c = false := by
  rcases eq_of_isQuote h with rfl | rfl <;> rfl

theorem quoted_take {quote : Char} (hquote : isQuote quote = true) {cs body after : List Char}
    (h : quoted quote cs = some (body, after)) (rest : List Char) :
    quoted quote (body ++ quote :: rest) = some (body, rest) := by
  have noEscape : quote ≠ '\\' := by
    rintro rfl
    exact absurd hquote (by decide)
  have noBreak : quote ≠ '\n' := by
    rintro rfl
    exact absurd hquote (by decide)
  induction cs using quoted.induct quote generalizing body after with
  | case1 => simp [quoted] at h
  | case2 c cs ih =>
    simp only [quoted, Option.map_eq_some_iff, Prod.mk.injEq] at h
    obtain ⟨⟨b, a⟩, hb, rfl, rfl⟩ := h
    simp [quoted, ih hb]
  | case3 cs => simp [quoted] at h
  | case4 cs _ _ =>
    simp only [quoted, noBreak, ↓reduceIte, Option.some.injEq, Prod.mk.injEq] at h
    obtain ⟨rfl, rfl⟩ := h
    rw [List.nil_append, quoted.eq_3 _ _ _ (fun _ _ same => absurd same noEscape)]
    simp [noBreak]
  | case5 c cs hesc hn hq ih =>
    simp only [quoted, hn, hq, ↓reduceIte, Option.map_eq_some_iff, Prod.mk.injEq] at h
    obtain ⟨⟨b, a⟩, hb, rfl, rfl⟩ := h
    have plain : c ≠ '\\' := by
      rintro rfl
      cases cs with
      | nil => simp [quoted] at hb
      | cons d cs => exact hesc d cs rfl rfl
    rw [List.cons_append, quoted.eq_3 _ _ _ (fun _ _ same => absurd same plain)]
    simp [hn, hq, ih hb]

theorem quoted_plain {quote : Char} (hquote : isQuote quote = true) {body : List Char}
    (plain : ∀ c ∈ body, c ≠ quote ∧ c ≠ '\\' ∧ c ≠ '\n') (rest : List Char) :
    quoted quote (body ++ quote :: rest) = some (body, rest) := by
  have closes : quoted quote [quote] = some ([], []) := by
    rcases eq_of_isQuote hquote with rfl | rfl <;> decide
  induction body with
  | nil => exact quoted_take hquote closes rest
  | cons c body ih =>
    obtain ⟨noQuote, noEscape, noBreak⟩ := plain c List.mem_cons_self
    have later := ih fun d hd => plain d (List.mem_cons_of_mem _ hd)
    rw [List.cons_append, quoted.eq_3 _ _ _ (fun _ _ same => absurd same noEscape)]
    simp [noBreak, noQuote, later]

theorem ne_slash_of_isSpace {c : Char} (blank : isSpace c = true) : c ≠ '/' := by
  rintro rfl
  exact absurd blank (by decide)

theorem gap_space_cons {c : Char} (noSlash : c ≠ '/') (cs : List Char) :
    gap .space (c :: cs) =
      if isSpace c then (c :: (gap .space cs).1, (gap .space cs).2) else ([], c :: cs) := by
  apply gap.eq_4
  · exact fun _ same => absurd same noSlash
  · exact fun _ same => absurd same noSlash

theorem append_of_gap {g : Gap} {cs taken left : List Char} (h : gap g cs = (taken, left)) : taken ++ left = cs := by
  have whole := Lexeme.gap_append g cs
  rwa [h] at whole

theorem head?_gap_block (cs : List Char) : (gap .block cs).1.head? = cs.head? := by
  cases cs with
  | nil => rfl
  | cons c cs =>
    by_cases ends : ∃ rest, c = '*' ∧ cs = '/' :: rest
    · obtain ⟨rest, rfl, rfl⟩ := ends
      rw [gap.eq_5]
      rfl
    · rw [gap.eq_6 _ _ fun rest hc hrest => ends ⟨rest, hc, hrest⟩]
      rfl

theorem gap_space_rest (g : Gap) (cs : List Char) : gap .space (gap g cs).2 = ([], (gap g cs).2) := by
  induction g, cs using gap.induct <;> simp_all [gap]

theorem gap_stop {g : Gap} {cs taken left rest : List Char} (blanks : gap g cs = (taken, left))
    (more : left ≠ []) (stops : gap .space rest = ([], rest)) : gap g (taken ++ rest) = (taken, rest) := by
  obtain ⟨rfl, rfl⟩ : (gap g cs).1 = taken ∧ (gap g cs).2 = left := by simp [blanks]
  clear blanks
  -- Along the text of the gap. Only where two characters are looked at together does the text behind it
  -- matter: in front of a slash, which `stops` excludes, and at the end of a block comment.
  induction g, cs using gap.induct with
  | case1 g => simp [gap] at more
  | case2 cs ih =>
    simp only [gap] at more ⊢
    simp [gap, ih more]
  | case3 cs ih =>
    simp only [gap] at more ⊢
    simp [gap, ih more]
  | case4 c cs noBlock noLine blank ih =>
    have noSlash := ne_slash_of_isSpace blank
    simp only [gap_space_cons noSlash, blank, ↓reduceIte] at more ⊢
    rw [List.cons_append, gap_space_cons noSlash]
    simp [blank, ih more]
  | case5 c cs noBlock noLine blank =>
    simp only [gap.eq_4 c _ noBlock noLine, blank]
    exact stops
  | case6 cs ih =>
    simp only [gap] at more ⊢
    simp [gap, ih more]
  | case7 c cs noEnd ih =>
    simp only [gap.eq_6 c _ noEnd] at more ⊢
    -- A star at the end of what is taken would have had the slash of `rest` behind it before as well.
    have goesOn : ∀ tail, c = '*' -> (gap .block cs).1 ++ rest = '/' :: tail -> False := by
      intro tail hc htail
      have head := head?_gap_block cs
      cases taken : (gap .block cs).1 with
      | nil =>
        rw [taken] at head
        rw [List.head?_eq_none_iff.mp head.symm] at more
        exact more rfl
      | cons d body =>
        rw [taken] at head htail
        cases cs with
        | nil => simp at head
        | cons e cs =>
          simp only [List.head?_cons, Option.some.injEq] at head
          simp only [List.cons_append, List.cons.injEq] at htail
          exact noEnd cs hc (by rw [← head, htail.1])
    rw [List.cons_append, gap.eq_6 _ _ goesOn, ih more]
  | case8 cs ih =>
    simp only [gap, ↓reduceIte] at more ⊢
    simp [gap, ih more]
  | case9 c cs noBreak ih =>
    simp only [gap, noBreak, ↓reduceIte] at more ⊢
    simp [gap, noBreak, ih more]

theorem isSpace_of_gap_space {c : Char} {cs : List Char} (stops : gap .space (c :: cs) = ([], c :: cs)) :
    isSpace c = false := by
  cases blank : isSpace c with
  | false => rfl
  | true =>
    rw [gap_space_cons (ne_slash_of_isSpace blank)] at stops
    simp [blank] at stops

theorem Alike.gap_space {cs ds : List Char} (h : Alike cs ds) (stops : gap .space cs = ([], cs)) :
    gap .space ds = ([], ds) := by
  cases cs with
  | nil => rw [h.eq_nil, gap]
  | cons c cs =>
    have noBlank := isSpace_of_gap_space stops
    obtain ⟨rest, rfl, later⟩ := h.cons_left
    -- A slash is no mark, so the character behind it is the same in both texts.
    have noComment : ∀ d more, c = '/' -> rest = d :: more -> d ≠ '*' ∧ d ≠ '/' := by
      rintro d more rfl rfl
      have later := later.resolve_left (by decide)
      obtain ⟨more, rfl, _⟩ := later.symm.cons_left
      constructor <;> rintro rfl <;> simp [gap] at stops
    rw [gap.eq_4 _ _ (fun _ hc hd => (noComment _ _ hc hd).1 rfl)
      (fun _ hc hd => (noComment _ _ hc hd).2 rfl)]
    simp [noBlank]

theorem Alike.gap_append {g : Gap} {cs taken left rest : List Char} (h : Alike left rest)
    (blanks : gap g cs = (taken, left)) : gap g (taken ++ rest) = (taken, rest) := by
  have whole := append_of_gap blanks
  by_cases none : left = []
  · subst none
    rw [h.eq_nil, whole, blanks]
  · have stops := gap_space_rest g cs
    rw [blanks] at stops
    exact gap_stop blanks none (h.gap_space stops)

theorem isSpace_of_mem_endBlanks {text : List Char} {c : Char} (h : c ∈ endBlanks text) :
    isSpace c = true := by
  rw [endBlanks, List.mem_reverse] at h
  exact List.mem_takeWhile_imp h

theorem head?_blanks {blanks : List Char} (blank : ∀ c ∈ blanks, isSpace c = true) (rest : List Char) :
    (blanks ++ ')' :: rest).head? ≠ some '\x7b' := by
  cases blanks with
  | nil => simp
  | cons d blanks =>
    rw [List.cons_append, List.head?_cons]
    rintro ⟨⟩
    exact absurd (blank _ List.mem_cons_self) (by decide)

theorem trimEnd_append_blanks (text : List Char) {blanks : List Char}
    (blank : ∀ c ∈ blanks, isSpace c = true) : trimEnd (text ++ blanks) = trimEnd text := by
  have blank : ∀ c ∈ blanks.reverse, isSpace c = true := fun c hc => blank c (List.mem_reverse.mp hc)
  rw [trimEnd, trimEnd, List.reverse_append, List.dropWhile_append_of_pos blank]

theorem endBlanks_append_blanks (text : List Char) {blanks : List Char}
    (blank : ∀ c ∈ blanks, isSpace c = true) : endBlanks (text ++ blanks) = endBlanks text ++ blanks := by
  have blank : ∀ c ∈ blanks.reverse, isSpace c = true := fun c hc => blank c (List.mem_reverse.mp hc)
  rw [endBlanks, endBlanks, List.reverse_append, List.takeWhile_append_of_pos blank, List.reverse_append,
    List.reverse_reverse]

theorem urlOpening?_take {cs opening inside : List Char} (h : urlOpening? cs = some (opening, inside))
    (rest : List Char) : urlOpening? (opening ++ rest) = some (opening, rest) := by
  unfold urlOpening? at h
  split at h
  next u r l inside =>
    split at h
    next letters =>
      simp only [Option.some.injEq, Prod.mk.injEq] at h
      obtain ⟨rfl, rfl⟩ := h
      simp only [List.cons_append, List.nil_append, urlOpening?]
      rw [if_pos letters]
    next => simp at h
  next => simp at h

theorem Alike.isSome_urlOpening? {cs ds : List Char} (h : Alike cs ds)
    (opens : (urlOpening? cs).isSome = true) : (urlOpening? ds).isSome = true := by
  unfold urlOpening? at opens
  split at opens
  next u r l inside =>
    split at opens
    next letters =>
      have noMark : isMark u = false ∧ isMark r = false ∧ isMark l = false := by
        simp only [Bool.and_eq_true, Bool.or_eq_true, decide_eq_true_eq] at letters
        obtain ⟨⟨rfl | rfl, rfl | rfl⟩, rfl | rfl⟩ := letters <;> decide
      obtain ⟨_, rfl, second⟩ := h.cons_of_not_mark noMark.1
      obtain ⟨_, rfl, third⟩ := second.cons_of_not_mark noMark.2.1
      obtain ⟨_, rfl, fourth⟩ := third.cons_of_not_mark noMark.2.2
      obtain ⟨_, rfl, _⟩ := fourth.cons_left
      simp [urlOpening?, letters]
    next => simp at opens
  next => simp at opens

theorem bareArgument_take {depth : Depth} {cs arg after : List Char}
    (h : bareArgument depth cs = some (arg, after)) (rest : List Char) :
    bareArgument depth (arg ++ ')' :: rest) = some (arg, rest) := by
  -- Along the argument. A character that is no escape and opens no brace must be neither before the
  -- parenthesis, which `head` gives: the next character is the same in both texts.
  induction depth, cs using bareArgument.induct generalizing arg after with
  | case1 => simp [bareArgument] at h
  | case2 depth c cs ih =>
    simp only [bareArgument, Option.map_eq_some_iff, Prod.mk.injEq] at h
    obtain ⟨⟨a, b⟩, hb, rfl, rfl⟩ := h
    simp [bareArgument, ih hb]
  | case3 depth cs ih =>
    simp only [bareArgument, Option.map_eq_some_iff, Prod.mk.injEq] at h
    obtain ⟨⟨a, b⟩, hb, rfl, rfl⟩ := h
    simp [bareArgument, ih hb]
  | case4 depth c cs hesc hopen deeper hnext ih =>
    rw [bareArgument.eq_4 depth c cs hesc hopen, hnext] at h
    simp only [Option.map_eq_some_iff, Prod.mk.injEq] at h
    obtain ⟨⟨a, b⟩, hb, rfl, rfl⟩ := h
    have whole := bareArgument_append hb
    have head : (a ++ ')' :: rest).head? = cs.head? := by
      rw [← whole]
      cases a <;> rfl
    have noEscape : ∀ d more, c = '\\' -> a ++ ')' :: rest = d :: more -> False := by
      intro d more hc _
      cases cs with
      | nil => simp at whole
      | cons e cs => exact hesc e cs hc rfl
    have noOpen : ∀ more, c = '#' -> a ++ ')' :: rest = '\x7b' :: more -> False := by
      intro more hc hmore
      rw [hmore] at head
      cases cs with
      | nil => simp at head
      | cons e cs =>
        simp only [List.head?_cons, Option.some.injEq] at head
        exact hopen cs hc (by rw [head])
    rw [List.cons_append, bareArgument.eq_4 _ _ _ noEscape noOpen, hnext]
    simp [ih hb]
  | case5 depth c cs hesc hopen hnext =>
    rw [bareArgument.eq_4 depth c cs hesc hopen, hnext] at h
    simp only [Option.some.injEq, Prod.mk.injEq] at h
    obtain ⟨rfl, rfl⟩ := h
    obtain rfl := Depth.eq_of_next_close hnext
    rw [List.nil_append, bareArgument.eq_4 _ _ _ (fun _ _ same => absurd same (by decide))
      (fun _ same => absurd same (by decide)), hnext]
  | case6 depth c cs hesc hopen hnext =>
    rw [bareArgument.eq_4 depth c cs hesc hopen, hnext] at h
    simp at h

theorem bareArgument_space {braces : Nat} {c : Char} (blank : isSpace c = true) (rest : List Char) :
    bareArgument { braces, parens := 0 } (c :: rest) =
      if braces = 0 ∧ c = '\n' then none
      else (bareArgument { braces, parens := 0 } rest).map fun (arg, after) => (c :: arg, after) := by
  have plain : c ≠ '\\' ∧ c ≠ '#' ∧ c ≠ '\x7d' ∧ c ≠ '(' ∧ c ≠ ')' := by
    rcases eq_of_isSpace blank with rfl | rfl | rfl | rfl | rfl <;> decide
  obtain ⟨noEscape, noHash, noClose, noLeft, noRight⟩ := plain
  rw [bareArgument.eq_4 _ _ _ (fun _ _ same => absurd same noEscape) (fun _ same => absurd same noHash)]
  cases braces with
  | zero => by_cases line : c = '\n' <;> simp [Depth.next, noLeft, noRight, line]
  | succ braces => simp [Depth.next, noClose]

theorem bareArgument_blanks {braces : Nat} {blanks rest after : List Char}
    (blank : ∀ c ∈ blanks, isSpace c = true) :
    bareArgument { braces, parens := 0 } (blanks ++ ')' :: rest) = some (blanks, after) ↔
      braces = 0 ∧ '\n' ∉ blanks ∧ after = rest := by
  induction blanks with
  | nil =>
    rw [List.nil_append, bareArgument.eq_4 _ _ _ (fun _ _ same => absurd same (by decide))
      (fun _ same => absurd same (by decide))]
    cases braces with
    | zero => simp [Depth.next, eq_comm]
    | succ braces => simp [Depth.next]
  | cons c blanks ih =>
    have ih := ih fun d hd => blank d (List.mem_cons_of_mem _ hd)
    rw [List.cons_append, bareArgument_space (blank c List.mem_cons_self)]
    split
    next line => simp [line.2]
    next noLine =>
      have apart : braces = 0 -> '\n' ≠ c := fun outside same => noLine ⟨outside, same.symm⟩
      have same : (bareArgument { braces, parens := 0 } (blanks ++ ')' :: rest)).map
          (fun (arg, after) => (c :: arg, after)) = some (c :: blanks, after) ↔
            bareArgument { braces, parens := 0 } (blanks ++ ')' :: rest) = some (blanks, after) := by
        simp
      rw [same, ih, List.mem_cons, not_or]
      constructor
      · rintro ⟨outside, later, rest_⟩
        exact ⟨outside, ⟨apart outside, later⟩, rest_⟩
      · rintro ⟨outside, ⟨_, later⟩, rest_⟩
        exact ⟨outside, later, rest_⟩

-- With its parenthesis on another line an argument is none.
theorem bareArgument_line {blanks : List Char} (blank : ∀ c ∈ blanks, isSpace c = true) (line : '\n' ∈ blanks)
    (rest : List Char) : bareArgument { braces := 0, parens := 0 } (blanks ++ ')' :: rest) = none := by
  induction blanks with
  | nil => simp at line
  | cons c blanks ih =>
    rw [List.cons_append, bareArgument_space (blank c List.mem_cons_self)]
    split
    next => rfl
    next noLine =>
      have later : '\n' ∈ blanks := (List.mem_cons.mp line).resolve_left fun same => noLine ⟨rfl, same.symm⟩
      rw [ih (fun d mem => blank d (.tail c mem)) later, Option.map_none]

theorem isPrefixOf?_nil (cs : List Char) : List.isPrefixOf? [] cs = some cs := rfl

theorem isPrefixOf?_cons (c d : Char) (name cs : List Char) :
    (c :: name).isPrefixOf? (d :: cs) = if c = d then name.isPrefixOf? cs else none := by
  show (if c == d then name.isPrefixOf? cs else none) = _
  simp

theorem Alike.isPrefixOf? {name cs ds after : List Char} (h : Alike cs ds)
    (noMark : ∀ c ∈ name, isMark c = false) (found : name.isPrefixOf? cs = some after) :
    ∃ more, name.isPrefixOf? ds = some more ∧ Alike after more := by
  induction name generalizing cs ds with
  | nil =>
    have same : cs = after := Option.some.inj found
    exact ⟨ds, rfl, same ▸ h⟩
  | cons c name ih =>
    have whole := append_of_isPrefixOf? found
    rw [← whole] at h found
    obtain ⟨rest, rfl, later⟩ := h.cons_of_not_mark (noMark c List.mem_cons_self)
    rw [List.cons_append, isPrefixOf?_cons, if_pos rfl] at found
    rw [isPrefixOf?_cons, if_pos rfl]
    exact ih later (fun d hd => noMark d (List.mem_cons_of_mem _ hd)) found

theorem ruleNames_eq : ruleNames =
    [(['i', 'm', 'p', 'o', 'r', 't'], true), (['u', 's', 'e'], false),
      (['f', 'o', 'r', 'w', 'a', 'r', 'd'], false)] := rfl

theorem isMark_ruleNames : ∀ entry ∈ ruleNames, ∀ c ∈ entry.1, isMark c = false := by
  have table : ruleNames.all (fun entry => entry.1.all fun c => !isMark c) = true := by decide
  simpa using table

theorem rule?_eq_none_iff {cs : List Char} :
    rule? cs = none ↔ ∀ entry ∈ ruleNames, ∀ after, entry.1.isPrefixOf? cs = some after ->
      (after.head?.map isIdent).getD false = true := by
  simp only [rule?, List.findSome?_eq_none_iff, Option.bind_eq_none_iff]
  constructor
  · intro h entry mem after found
    have none := h entry mem after found
    split at none
    next ident => exact ident
    next => simp at none
  · intro h entry mem after found
    rw [if_pos (h entry mem after found)]

theorem Alike.rule?_eq_none {cs ds : List Char} (h : Alike cs ds) (noRule : rule? cs = none) :
    rule? ds = none := by
  rw [rule?_eq_none_iff] at noRule ⊢
  intro entry mem more found
  obtain ⟨after, found, alike⟩ := h.symm.isPrefixOf? (isMark_ruleNames entry mem) found
  rw [← alike.head?]
  exact noRule entry mem after found

theorem rule?_apart {cs name after : List Char} {fromImport : Bool}
    (h : rule? cs = some (name, fromImport, after)) : (after.head?.map isIdent).getD false = false := by
  obtain ⟨_, _, found⟩ := List.exists_of_findSome?_eq_some h
  obtain ⟨_, _, found⟩ := Option.bind_eq_some_iff.mp found
  split at found
  next => simp at found
  next apart =>
    simp only [Option.some.injEq, Prod.mk.injEq] at found
    simpa [← found.2.2] using apart

theorem rule?_take {cs name after : List Char} {fromImport : Bool}
    (h : rule? cs = some (name, fromImport, after)) {rest : List Char}
    (apart : (rest.head?.map isIdent).getD false = false) :
    rule? (name ++ rest) = some (name, fromImport, rest) := by
  obtain ⟨⟨n, f⟩, mem, found⟩ := List.exists_of_findSome?_eq_some h
  obtain ⟨a, _, found⟩ := Option.bind_eq_some_iff.mp found
  split at found
  next => simp at found
  next =>
    simp only [Option.some.injEq, Prod.mk.injEq] at found
    obtain ⟨rfl, rfl, rfl⟩ := found
    simp only [ruleNames_eq, List.mem_cons, Prod.mk.injEq, List.not_mem_nil, or_false] at mem
    rcases mem with ⟨rfl, rfl⟩ | ⟨rfl, rfl⟩ | ⟨rfl, rfl⟩ <;>
      simp [rule?, ruleNames_eq, isPrefixOf?_cons, isPrefixOf?_nil, apart]

end Lexeme

open Lexeme

namespace Token

theorem takeWhile_blanks {blanks : List Char} (blank : ∀ c ∈ blanks, isSpace c = true) {c : Char}
    (stop : isSpace c = false) (rest : List Char) :
    (blanks ++ c :: rest).takeWhile isSpace = blanks ∧
      (blanks ++ c :: rest).dropWhile isSpace = c :: rest := by
  rw [List.takeWhile_append_of_pos blank, List.dropWhile_append_of_pos blank, List.takeWhile_cons,
    List.dropWhile_cons]
  simp [stop]

theorem argument?_shape {c : Char} {rest closing more : List Char} {t : Token}
    (h : argument? c rest = some (t, closing, more)) :
    (∃ value, t.kind = .argument value ∧ (t.text = [] -> value = [])) ∧
      ∃ blanks, closing = blanks ++ [')'] ∧ ∀ d ∈ blanks, isSpace d = true := by
  unfold argument? at h
  split at h
  next =>
    split at h
    next => simp at h
    next =>
      split at h
      next =>
        simp only [Option.some.injEq, Prod.mk.injEq] at h
        obtain ⟨rfl, rfl, rfl⟩ := h
        exact ⟨⟨_, rfl, fun empty => by simp at empty⟩, _, rfl, fun d hd => List.mem_takeWhile_imp hd⟩
      next => simp at h
  next =>
    split at h
    next => simp at h
    next =>
      simp only [Option.some.injEq, Prod.mk.injEq] at h
      obtain ⟨rfl, rfl, rfl⟩ := h
      exact ⟨⟨_, rfl, fun empty => congrArg unescape empty⟩, _, rfl, fun d hd => isSpace_of_mem_endBlanks hd⟩

theorem argument?_take {c : Char} {rest closing more : List Char} {t : Token}
    (h : argument? c rest = some (t, closing, more)) {rest' more' : List Char}
    (whole : t.text ++ (closing ++ more') = c :: rest') :
    argument? c rest' = some (t, closing, more') := by
  unfold argument? at h ⊢
  split at h
  next isQuote =>
    rw [if_pos isQuote]
    split at h
    next => simp at h
    next body after hq =>
      split at h
      next =>
        simp only [Option.some.injEq, Prod.mk.injEq] at h
        obtain ⟨rfl, rfl, rfl⟩ := h
        have blank : ∀ d ∈ after.takeWhile isSpace, isSpace d = true :=
          fun d hd => List.mem_takeWhile_imp hd
        have close := takeWhile_blanks blank (c := ')') (by decide) more'
        simp only [List.cons_append, List.append_assoc, List.nil_append, List.cons.injEq, true_and] at whole
        rw [← whole, quoted_take isQuote hq]
        simp only [close.1, close.2]
      next => simp at h
  next noQuote =>
    rw [if_neg noQuote]
    split at h
    next => simp at h
    next arg after hq =>
      simp only [Option.some.injEq, Prod.mk.injEq] at h
      obtain ⟨rfl, rfl, rfl⟩ := h
      rw [List.append_assoc, ← List.append_assoc (trimEnd arg), trimEnd_append,
        List.singleton_append] at whole
      rw [← whole, bareArgument_take hq]

theorem urlTokens?_of_opening {cs opening before rest : List Char} {c : Char}
    (h : urlOpening? cs = some (opening, before ++ c :: rest)) (blank : ∀ d ∈ before, isSpace d = true)
    (stop : isSpace c = false) :
    urlTokens? cs = (argument? c rest).map fun (arg, closing, more) =>
      ([plain (opening ++ before), arg, plain closing], more) := by
  have inside := takeWhile_blanks blank stop rest
  rw [urlTokens?, h]
  simp only [inside.1, inside.2]
  cases argument? c rest <;> rfl

theorem exists_of_urlTokens? {cs more : List Char} {tokens : List Token}
    (h : urlTokens? cs = some (tokens, more)) :
    ∃ opening before c rest arg closing, tokens = [plain (opening ++ before), arg, plain closing] ∧
      urlOpening? cs = some (opening, before ++ c :: rest) ∧ (∀ d ∈ before, isSpace d = true) ∧
      isSpace c = false ∧ argument? c rest = some (arg, closing, more) := by
  unfold urlTokens? at h
  split at h
  next => simp at h
  next opening inside ho =>
    have hblank := List.takeWhile_append_dropWhile (p := isSpace) (l := inside)
    split at h
    next => simp at h
    next c rest hd =>
      split at h
      next => simp at h
      next arg closing m ha =>
        simp only [Option.some.injEq, Prod.mk.injEq] at h
        obtain ⟨rfl, rfl⟩ := h
        refine ⟨opening, inside.takeWhile isSpace, c, rest, arg, closing, rfl, ?_, ?_, ?_, ha⟩
        · rw [ho, ← hd, hblank]
        · exact fun d hd => List.mem_takeWhile_imp hd
        · have stop := List.head?_dropWhile_not isSpace inside
          rw [hd] at stop
          simpa using stop

theorem specifier?_shape {fromImport : Bool} {listed after : List Char} {t : Token}
    (h : specifier? fromImport listed = some (t, after)) :
    ∃ value, t.kind = .specifier value fromImport ∧
      (t.text = value ∨ ∃ quote, isQuote quote = true ∧ t.text = quote :: value ++ [quote]) := by
  cases listed with
  | nil => simp [specifier?] at h
  | cons c cs =>
    rw [specifier?] at h
    split at h
    next quote =>
      obtain ⟨⟨body, _⟩, _, same⟩ := Option.map_eq_some_iff.mp h
      rw [Prod.mk.injEq] at same
      obtain ⟨rfl, _⟩ := same
      exact ⟨body, rfl, .inr ⟨c, quote, rfl⟩⟩
    next =>
      split at h
      next => simp at h
      next =>
        rw [Option.some.injEq, Prod.mk.injEq] at h
        obtain ⟨rfl, _⟩ := h
        exact ⟨_, rfl, .inl rfl⟩

theorem specifier?_take {fromImport : Bool} {cs after rest : List Char} {t : Token}
    (h : specifier? fromImport cs = some (t, after)) (alike : Alike after rest) :
    specifier? fromImport (t.text ++ rest) = some (t, rest) := by
  cases cs with
  | nil => simp [specifier?] at h
  | cons c cs =>
    rw [specifier?] at h
    split at h
    next isQuote =>
      obtain ⟨⟨body, a⟩, hq, heq⟩ := Option.map_eq_some_iff.mp h
      simp only [Prod.mk.injEq] at heq
      obtain ⟨rfl, rfl⟩ := heq
      simp only [List.cons_append, List.append_assoc, List.nil_append, specifier?]
      rw [if_pos isQuote, quoted_take isQuote hq]
      rfl
    next noQuote =>
      split at h
      next => simp at h
      next word =>
        simp only [Option.some.injEq, Prod.mk.injEq] at h
        obtain ⟨rfl, rfl⟩ := h
        have whole : cs.takeWhile (fun d => !endsWord d) ++ cs.dropWhile (fun d => !endsWord d) = cs :=
          List.takeWhile_append_dropWhile
        have inside : ∀ d ∈ cs.takeWhile (fun d => !endsWord d), (!endsWord d) = true :=
          fun d hd => List.mem_takeWhile_imp (p := fun d => !endsWord d) hd
        -- The word ends where the text behind it begins, since that text starts as it did.
        have stops : rest.takeWhile (fun d => !endsWord d) = [] ∧
            rest.dropWhile (fun d => !endsWord d) = rest := by
          have head := List.head?_dropWhile_not (fun d => !endsWord d) cs
          rw [← alike.head?] at head
          cases rest with
          | nil => simp
          | cons d rest =>
            have ends : endsWord d = true := by simpa using head
            simp [ends]
        -- A word that is no `url(` becomes none: the opening holds no character behind a mark.
        have noUrl : ¬((urlOpening? (c :: (cs.takeWhile (fun d => !endsWord d) ++ rest))).isSome ||
            endsRule c) = true := by
          intro url
          rw [Bool.or_eq_true] at url word
          refine word (url.imp_left fun opens => ?_)
          have alike := (alike.append (c :: cs.takeWhile fun d => !endsWord d)).symm
          rw [List.cons_append, List.cons_append, whole] at alike
          exact alike.isSome_urlOpening? opens
        rw [List.cons_append, specifier?, if_neg noQuote, if_neg noUrl,
          List.takeWhile_append_of_pos inside, List.dropWhile_append_of_pos inside, stops.1, stops.2,
          List.append_nil]

theorem specifier?_eq_none {fromImport : Bool} {cs ds : List Char} (h : specifier? fromImport cs = none)
    (alike : Alike cs ds)
    (openString : ∀ c rest, cs = c :: rest -> isQuote c = true -> quoted c rest = none -> ds = cs) :
    specifier? fromImport ds = none := by
  cases cs with
  | nil => rw [alike.eq_nil, specifier?]
  | cons c cs =>
    have same := h
    rw [specifier?] at h
    split at h
    next isQuote => rwa [openString c cs rfl isQuote (Option.map_eq_none_iff.mp h)]
    next noQuote =>
      split at h
      next ends =>
        obtain ⟨rest, rfl, _⟩ := alike.cons_left
        rw [Bool.or_eq_true] at ends
        rw [specifier?, if_neg noQuote,
          if_pos (Bool.or_eq_true _ _ ▸ ends.imp_left fun opens => alike.isSome_urlOpening? opens)]
      next => simp at h

end Token

end StylesheetImports
