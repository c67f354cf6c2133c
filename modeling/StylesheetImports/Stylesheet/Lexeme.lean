import StylesheetImports.Text.Offset

set_option autoImplicit false

namespace StylesheetImports

namespace Lexeme

def isSpace (c : Char) : Bool :=
  c = ' ' || c = '\t' || c = '\n' || c = '\x0c' || c = '\r'

def isIdent (c : Char) : Bool :=
  c.isAlphanum || c = '-' || c = '_' || 0x80 <= c.toNat

def isQuote (c : Char) : Bool :=
  c = '"' || c = '\''

-- The body of a string and what follows its closing quote. A backslash takes the next character
-- along; a line feed or the end of the text leaves the string open.
def quoted (quote : Char) : List Char -> Option (List Char × List Char)
  | [] => none
  | '\\' :: c :: rest => (quoted quote rest).map (fun (body, after) => ('\\' :: c :: body, after))
  | c :: rest =>
    if c = '\n' then none
    else if c = quote then some ([], rest)
    else (quoted quote rest).map (fun (body, after) => (c :: body, after))

theorem quoted_append {quote : Char} {cs body after : List Char}
    (h : quoted quote cs = some (body, after)) : body ++ quote :: after = cs := by
  induction cs using quoted.induct quote generalizing body after with
  | case1 => simp [quoted] at h
  | case2 c rest ih =>
    simp only [quoted, Option.map_eq_some_iff, Prod.mk.injEq] at h
    obtain ⟨⟨b, a⟩, hb, rfl, rfl⟩ := h
    simp [ih hb]
  | case3 rest => simp_all [quoted]
  | case4 rest _ _ => simp_all [quoted]
  | case5 c rest hesc hn hq ih =>
    simp only [quoted, hn, hq, ↓reduceIte, Option.map_eq_some_iff, Prod.mk.injEq] at h
    obtain ⟨⟨b, a⟩, hb, rfl, rfl⟩ := h
    simp [ih hb]

inductive Gap where
  | space
  | block
  | line

def gap : Gap -> List Char -> List Char × List Char
  | _, [] => ([], [])
  | .space, '/' :: '*' :: rest => ('/' :: '*' :: (gap .block rest).1, (gap .block rest).2)
  | .space, '/' :: '/' :: rest => ('/' :: '/' :: (gap .line rest).1, (gap .line rest).2)
  | .space, c :: rest => if isSpace c then (c :: (gap .space rest).1, (gap .space rest).2) else ([], c :: rest)
  | .block, '*' :: '/' :: rest => ('*' :: '/' :: (gap .space rest).1, (gap .space rest).2)
  | .block, c :: rest => (c :: (gap .block rest).1, (gap .block rest).2)
  | .line, c :: rest =>
    if c = '\n' then (c :: (gap .space rest).1, (gap .space rest).2)
    else (c :: (gap .line rest).1, (gap .line rest).2)

theorem gap_append (g : Gap) (cs : List Char) : (gap g cs).1 ++ (gap g cs).2 = cs := by
  induction g, cs using gap.induct <;> simp_all [gap]

theorem length_gap_le (g : Gap) (cs : List Char) : (gap g cs).2.length <= cs.length := by
  have h := congrArg List.length (gap_append g cs)
  simp at h
  omega

def urlOpening? : List Char -> Option (List Char × List Char)
  | u :: r :: l :: '(' :: rest =>
    if (u = 'u' || u = 'U') && (r = 'r' || r = 'R') && (l = 'l' || l = 'L') then
      some ([u, r, l, '('], rest)
    else none
  | _ => none

structure Depth where
  braces : Nat
  parens : Nat
  deriving DecidableEq

inductive Depth.Next where
  | goOn (depth : Depth)
  | close
  | broken
  deriving DecidableEq

-- Nothing counts inside `#{...}` but its end, parentheses nest, and a line feed breaks an argument
-- in which neither is open.
def Depth.next (depth : Depth) (c : Char) : Depth.Next :=
  match depth with
  | { braces := b + 1, parens := p } => .goOn { braces := if c = '\x7d' then b else b + 1, parens := p }
  | { braces := 0, parens := p + 1 } =>
    .goOn { braces := 0, parens := if c = '(' then p + 2 else if c = ')' then p else p + 1 }
  | { braces := 0, parens := 0 } =>
    if c = '(' then .goOn { braces := 0, parens := 1 }
    else if c = ')' then .close
    else if c = '\n' then .broken
    else .goOn depth

-- An argument without quotes, with the blanks after it, and what follows its closing parenthesis. A
-- backslash takes the next character along.
def bareArgument (depth : Depth) : List Char -> Option (List Char × List Char)
  | [] => none
  | '\\' :: c :: rest => (bareArgument depth rest).map (fun (arg, after) => ('\\' :: c :: arg, after))
  | '#' :: '\x7b' :: rest =>
    (bareArgument { depth with braces := depth.braces + 1 } rest).map
      (fun (arg, after) => ('#' :: '\x7b' :: arg, after))
  | c :: rest =>
    match depth.next c with
    | .goOn deeper => (bareArgument deeper rest).map (fun (arg, after) => (c :: arg, after))
    | .close => some ([], rest)
    | .broken => none

theorem Depth.eq_of_next_close {depth : Depth} {c : Char} (h : depth.next c = .close) : c = ')' := by
  unfold Depth.next at h
  split at h
  next => simp at h
  next => simp at h
  next =>
    split at h
    next => simp at h
    next =>
      split at h
      next hclose => exact hclose
      next => split at h <;> simp at h

theorem bareArgument_append {depth : Depth} {cs arg after : List Char}
    (h : bareArgument depth cs = some (arg, after)) : arg ++ ')' :: after = cs := by
  induction depth, cs using bareArgument.induct generalizing arg after with
  | case1 => simp [bareArgument] at h
  | case2 depth c rest ih =>
    simp only [bareArgument, Option.map_eq_some_iff, Prod.mk.injEq] at h
    obtain ⟨⟨a, b⟩, hb, rfl, rfl⟩ := h
    simp [ih hb]
  | case3 depth rest ih =>
    simp only [bareArgument, Option.map_eq_some_iff, Prod.mk.injEq] at h
    obtain ⟨⟨a, b⟩, hb, rfl, rfl⟩ := h
    simp [ih hb]
  | case4 depth c rest hesc hopen deeper hnext ih =>
    rw [bareArgument.eq_4 depth c rest hesc hopen, hnext] at h
    simp only [Option.map_eq_some_iff, Prod.mk.injEq] at h
    obtain ⟨⟨a, b⟩, hb, rfl, rfl⟩ := h
    simp [ih hb]
  | case5 depth c rest hesc hopen hnext =>
    rw [bareArgument.eq_4 depth c rest hesc hopen, hnext] at h
    simp only [Option.some.injEq, Prod.mk.injEq] at h
    obtain ⟨rfl, rfl⟩ := h
    simp [Depth.eq_of_next_close hnext]
  | case6 depth c rest hesc hopen hnext =>
    rw [bareArgument.eq_4 depth c rest hesc hopen, hnext] at h
    simp at h

def unescape : List Char -> List Char
  | [] => []
  | '\\' :: c :: rest => c :: unescape rest
  | ['\\'] => []
  | c :: rest => c :: unescape rest

def trimEnd (text : List Char) : List Char :=
  (text.reverse.dropWhile isSpace).reverse

def endBlanks (text : List Char) : List Char :=
  (text.reverse.takeWhile isSpace).reverse

def ruleNames : List (List Char × Bool) :=
  [("import".toList, true), ("use".toList, false), ("forward".toList, false)]

def rule? (cs : List Char) : Option (List Char × Bool × List Char) :=
  ruleNames.findSome? fun (name, fromImport) =>
    (name.isPrefixOf? cs).bind fun after =>
      if (after.head?.map isIdent).getD false then none else some (name, fromImport, after)

def endsWord (c : Char) : Bool :=
  c = ';' || c = ',' || c = '\x7b' || c = '\x7d' || isSpace c

def endsRule (c : Char) : Bool :=
  endsWord c || c = '#' || c = '$'

theorem urlOpening?_append {cs opening inside : List Char}
    (h : urlOpening? cs = some (opening, inside)) : opening ++ inside = cs ∧ opening ≠ [] := by
  unfold urlOpening? at h
  split at h
  next =>
    split at h
    next =>
      simp only [Option.some.injEq, Prod.mk.injEq] at h
      obtain ⟨rfl, rfl⟩ := h
      simp
    next => simp at h
  next => simp at h

theorem append_of_isPrefixOf? {start cs after : List Char} (h : start.isPrefixOf? cs = some after) :
    start ++ after = cs := by
  induction start generalizing cs with
  | nil => exact (Option.some.inj h).symm
  | cons c start ih =>
    cases cs with
    | nil => exact absurd h (by rintro ⟨⟩)
    | cons d cs =>
      have h : (if c == d then start.isPrefixOf? cs else none) = some after := h
      rw [Option.ite_none_right_eq_some, beq_iff_eq] at h
      rw [h.1, List.cons_append, ih h.2]

theorem rule?_append {cs name after : List Char} {fromImport : Bool}
    (h : rule? cs = some (name, fromImport, after)) : name ++ after = cs := by
  obtain ⟨⟨n, f⟩, _, hn⟩ := List.exists_of_findSome?_eq_some h
  obtain ⟨rest, hp, hr⟩ := Option.bind_eq_some_iff.mp hn
  split at hr
  next => simp at hr
  next =>
    simp only [Option.some.injEq, Prod.mk.injEq] at hr
    obtain ⟨rfl, rfl, rfl⟩ := hr
    exact append_of_isPrefixOf? hp

theorem trimEnd_append (text : List Char) : trimEnd text ++ endBlanks text = text := by
  rw [trimEnd, endBlanks, ← List.reverse_append, List.takeWhile_append_dropWhile, List.reverse_reverse]

end Lexeme

end StylesheetImports
