import StylesheetImports.Stylesheet.Lexeme

/-!
The tokens of a stylesheet. A stylesheet is cut, without being parsed, into plain text, arguments of
`url(...)` and specifiers of `@import`, `@use` and `@forward`; the texts of the tokens make up the
stylesheet again. Comments and other strings are plain, so nothing inside them is found.
-/

set_option autoImplicit false

namespace StylesheetImports

namespace Token

/-- What a token is, with its quotes removed: a `url(...)` argument is read with its escapes resolved, a
specifier as it is written. -/
inductive Kind where
  | plain
  | argument (value : List Char)
  | specifier (value : List Char) (fromImport : Bool)
  deriving DecidableEq

end Token

structure Token where
  text : List Char
  kind : Token.Kind
  deriving DecidableEq

open Lexeme

namespace Token

def plain (text : List Char) : Token :=
  { text, kind := .plain }

def source (tokens : List Token) : List Char :=
  tokens.flatMap (·.text)

@[simp] theorem source_nil : source [] = [] := rfl

@[simp] theorem source_cons (t : Token) (tokens : List Token) :
    source (t :: tokens) = t.text ++ source tokens := rfl

@[simp] theorem source_append (a b : List Token) : source (a ++ b) = source a ++ source b := by
  simp [source]

@[simp] theorem text_plain (text : List Char) : (plain text).text = text := rfl

/-- The argument at the head of `c :: rest`, what stands between it and the end of the parenthesis, and
the text after that. An argument is a string with its quotes, or bare text without the blanks around it. -/
def argument? (c : Char) (rest : List Char) : Option (Token × List Char × List Char) :=
  if isQuote c then
    match quoted c rest with
    | none => none
    | some (body, after) =>
      match after.dropWhile isSpace with
      | ')' :: more =>
        some ({ text := c :: body ++ [c], kind := .argument (unescape body) },
          after.takeWhile isSpace ++ [')'], more)
      | _ => none
  else match bareArgument { braces := 0, parens := 0 } (c :: rest) with
    | none => none
    | some (arg, more) =>
      some ({ text := trimEnd arg, kind := .argument (unescape (trimEnd arg)) }, endBlanks arg ++ [')'],
        more)

theorem argument?_append {c : Char} {rest closing more : List Char} {t : Token}
    (h : argument? c rest = some (t, closing, more)) : t.text ++ (closing ++ more) = c :: rest := by
  unfold argument? at h
  split at h
  next =>
    split at h
    next => simp at h
    next body after hq =>
      have hend := List.takeWhile_append_dropWhile (p := isSpace) (l := after)
      split at h
      next m hm =>
        simp only [Option.some.injEq, Prod.mk.injEq] at h
        obtain ⟨rfl, rfl, rfl⟩ := h
        rw [hm] at hend
        simp only [List.append_assoc, List.cons_append, List.nil_append]
        rw [hend, quoted_append hq]
      next => simp at h
  next =>
    split at h
    next => simp at h
    next arg m hq =>
      simp only [Option.some.injEq, Prod.mk.injEq] at h
      obtain ⟨rfl, rfl, rfl⟩ := h
      rw [List.append_assoc, ← List.append_assoc (trimEnd arg), trimEnd_append, List.cons_append,
        List.nil_append, bareArgument_append hq]

-- The tokens of a whole `url(...)` at the head of the text, and the text after it.
def urlTokens? (cs : List Char) : Option (List Token × List Char) :=
  match urlOpening? cs with
  | none => none
  | some (opening, inside) =>
    match inside.dropWhile isSpace with
    | [] => none
    | c :: rest =>
      match argument? c rest with
      | none => none
      | some (arg, closing, more) =>
        some ([plain (opening ++ inside.takeWhile isSpace), arg, plain closing], more)

theorem urlTokens?_source {cs more : List Char} {tokens : List Token}
    (h : urlTokens? cs = some (tokens, more)) : source tokens ++ more = cs ∧ source tokens ≠ [] := by
  unfold urlTokens? at h
  split at h
  next => simp at h
  next opening inside ho =>
    obtain ⟨hcs, hne⟩ := urlOpening?_append ho
    have hblank := List.takeWhile_append_dropWhile (p := isSpace) (l := inside)
    split at h
    next => simp at h
    next c rest hd =>
      split at h
      next => simp at h
      next arg closing m ha =>
        simp only [Option.some.injEq, Prod.mk.injEq] at h
        obtain ⟨rfl, rfl⟩ := h
        constructor
        · simp only [source_cons, text_plain, source_nil, List.append_assoc, List.nil_append]
          rw [argument?_append ha, ← hd, hblank, hcs]
        · simp [hne]

def specifier? (fromImport : Bool) : List Char -> Option (Token × List Char)
  | [] => none
  | c :: rest =>
    if isQuote c then
      (quoted c rest).map fun (body, after) =>
        ({ text := c :: body ++ [c], kind := .specifier body fromImport }, after)
    else if (urlOpening? (c :: rest)).isSome || endsRule c then none
    else
      let word := c :: rest.takeWhile (fun d => !endsWord d)
      some ({ text := word, kind := .specifier word fromImport }, rest.dropWhile (fun d => !endsWord d))

theorem specifier?_append {fromImport : Bool} {cs : List Char} {t : Token} {after : List Char}
    (h : specifier? fromImport cs = some (t, after)) : t.text ++ after = cs ∧ t.text ≠ [] := by
  cases cs with
  | nil => simp [specifier?] at h
  | cons c rest =>
    simp only [specifier?] at h
    split at h
    next =>
      obtain ⟨⟨body, a⟩, hq, heq⟩ := Option.map_eq_some_iff.mp h
      simp only [Prod.mk.injEq] at heq
      obtain ⟨rfl, rfl⟩ := heq
      simp [quoted_append hq]
    next =>
      split at h
      next => simp at h
      next =>
        simp only [Option.some.injEq, Prod.mk.injEq] at h
        obtain ⟨rfl, rfl⟩ := h
        simp

theorem length_specifier?_lt {fromImport : Bool} {cs : List Char} {t : Token} {after : List Char}
    (h : specifier? fromImport cs = some (t, after)) : after.length < cs.length := by
  obtain ⟨happ, hne⟩ := specifier?_append h
  have hlen := congrArg List.length happ
  have hpos : 0 < t.text.length := List.length_pos_iff.mpr hne
  simp at hlen
  omega

/-- The tokens of a rule after its name. `@import` takes a list; the others take one specifier. -/
def ruleTokens (fromImport : Bool) (cs : List Char) : List Token × List Char :=
  let before := (gap .space cs).1
  match _h : specifier? fromImport (gap .space cs).2 with
  | none => ([plain before], (gap .space cs).2)
  | some (t, after) =>
    if fromImport then
      match _sep : (gap .space after).2 with
      | ',' :: more =>
        (plain before :: t :: plain ((gap .space after).1 ++ [',']) :: (ruleTokens fromImport more).1,
          (ruleTokens fromImport more).2)
      | _ => ([plain before, t], after)
    else ([plain before, t], after)
termination_by cs.length
decreasing_by
  have h1 := length_gap_le .space cs
  have h2 := length_specifier?_lt _h
  have h3 := length_gap_le .space after
  simp [_sep] at h3
  omega

-- The tokens at the head of a text, the text after them, and whether a character of a name stands
-- before that text.
structure Step where
  tokens : List Token
  rest : List Char
  afterIdent : Bool

def urlStep (afterIdent : Bool) (c : Char) (rest : List Char) : Step :=
  match if afterIdent then none else urlTokens? (c :: rest) with
  | some (tokens, more) => { tokens, rest := more, afterIdent := false }
  | none => { tokens := [plain [c]], rest, afterIdent := isIdent c }

def gapStep (opening : List Char) (g : Gap) (rest : List Char) : Step :=
  { tokens := [plain (opening ++ (gap g rest).1)], rest := (gap g rest).2, afterIdent := false }

/-- What stands at the head of `c :: rest`. A string without an end takes all of the text. -/
def step (afterIdent : Bool) (c : Char) (rest : List Char) : Step :=
  match c, rest with
  | '/', '*' :: more => gapStep ['/', '*'] .block more
  | '/', '/' :: more => gapStep ['/', '/'] .line more
  | c, rest =>
    if isQuote c then
      match quoted c rest with
      | some (body, after) => { tokens := [plain (c :: body ++ [c])], rest := after, afterIdent := false }
      | none => { tokens := [plain (c :: rest)], rest := [], afterIdent := false }
    else if c = '@' then
      match rule? rest with
      | some (name, fromImport, after) =>
        { tokens := plain (c :: name) :: (ruleTokens fromImport after).1
          rest := (ruleTokens fromImport after).2
          afterIdent := false }
      | none => urlStep afterIdent c rest
    else urlStep afterIdent c rest

theorem ruleTokens_source (fromImport : Bool) (cs : List Char) :
    source (ruleTokens fromImport cs).1 ++ (ruleTokens fromImport cs).2 = cs := by
  have hgap := gap_append .space cs
  rw [ruleTokens]
  split
  next => simpa using hgap
  next t after h =>
    have hspec := (specifier?_append h).1
    split
    next =>
      split
      next more hsep =>
        have hafter := gap_append .space after
        have hshort : more.length < cs.length := by
          have h1 := length_gap_le .space cs
          have h2 := length_specifier?_lt h
          have h3 := length_gap_le .space after
          simp [hsep] at h3
          omega
        rw [hsep] at hafter
        have ih := ruleTokens_source fromImport more
        simp only [source_cons, text_plain, List.append_assoc, List.cons_append, List.nil_append]
        rw [ih, hafter, hspec, hgap]
      next => simp [hspec, hgap]
    next => simp [hspec, hgap]
termination_by cs.length

theorem urlStep_source (afterIdent : Bool) (c : Char) (rest : List Char) :
    source (urlStep afterIdent c rest).tokens ++ (urlStep afterIdent c rest).rest = c :: rest := by
  unfold urlStep
  split
  next h =>
    split at h
    next => simp at h
    next => exact (urlTokens?_source h).1
  next => simp

theorem gapStep_source (opening : List Char) (g : Gap) (rest : List Char) :
    source (gapStep opening g rest).tokens ++ (gapStep opening g rest).rest = opening ++ rest := by
  simp [gapStep, gap_append]

theorem step_source (afterIdent : Bool) (c : Char) (rest : List Char) :
    source (step afterIdent c rest).tokens ++ (step afterIdent c rest).rest = c :: rest := by
  unfold step
  split
  next => exact gapStep_source _ _ _
  next => exact gapStep_source _ _ _
  next =>
    split
    next =>
      split
      next h => simp [quoted_append h]
      next => simp
    next =>
      split
      next =>
        split
        next h => simp [ruleTokens_source, rule?_append h]
        next => exact urlStep_source _ _ _
      next => exact urlStep_source _ _ _

theorem urlStep_tokens_ne (afterIdent : Bool) (c : Char) (rest : List Char) :
    source (urlStep afterIdent c rest).tokens ≠ [] := by
  unfold urlStep
  split
  next h =>
    split at h
    next => simp at h
    next => exact (urlTokens?_source h).2
  next => simp

theorem step_tokens_ne (afterIdent : Bool) (c : Char) (rest : List Char) :
    source (step afterIdent c rest).tokens ≠ [] := by
  unfold step
  split
  next => simp [gapStep]
  next => simp [gapStep]
  next =>
    split
    next => split <;> simp
    next =>
      split
      next =>
        split
        next => simp
        next => exact urlStep_tokens_ne _ _ _
      next => exact urlStep_tokens_ne _ _ _

theorem length_step_lt (afterIdent : Bool) (c : Char) (rest : List Char) :
    (step afterIdent c rest).rest.length < (c :: rest).length := by
  have h := congrArg List.length (step_source afterIdent c rest)
  have hpos := List.length_pos_iff.mpr (step_tokens_ne afterIdent c rest)
  simp only [List.length_append] at h
  omega

def tokensFrom (afterIdent : Bool) : List Char -> List Token
  | [] => []
  | c :: rest =>
    (step afterIdent c rest).tokens
      ++ tokensFrom (step afterIdent c rest).afterIdent (step afterIdent c rest).rest
termination_by text => text.length
decreasing_by exact length_step_lt afterIdent c rest

def ofText (text : List Char) : List Token :=
  tokensFrom false text

theorem source_tokensFrom (afterIdent : Bool) (text : List Char) :
    source (tokensFrom afterIdent text) = text := by
  induction afterIdent, text using tokensFrom.induct with
  | case1 => simp [tokensFrom]
  | case2 afterIdent c rest ih => rw [tokensFrom, source_append, ih, step_source]

theorem source_ofText (text : List Char) : source (ofText text) = text :=
  source_tokensFrom false text

end Token

end StylesheetImports
