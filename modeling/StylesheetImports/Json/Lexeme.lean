import StylesheetImports.Text.Numeral

set_option autoImplicit false

namespace StylesheetImports

inductive Malformed where
  | ending
  | grammar
  | data
  deriving DecidableEq

namespace Json

def isSpace (c : Char) : Bool :=
  c = ' ' || c = '\n' || c = '\t' || c = '\r'

def skipSpace (text : List Char) : List Char :=
  text.dropWhile isSpace

def literal : List Char -> List Char -> Except Malformed (List Char)
  | [], text => .ok text
  | _ :: _, [] => .error .ending
  | c :: more, d :: text => if c = d then literal more text else .error .grammar

def codeUnit (text : List Char) : Except Malformed (Nat × List Char) :=
  match text with
  | a :: b :: c :: d :: rest =>
    match numberIn? 16 [a, b, c, d] with
    | some n => .ok (n, rest)
    | none => .error .grammar
  | few =>
    if few.foldr (fun c size => c.utf8Size + size) 0 < 4 then .error .ending else .error .grammar

def plainEscape? (c : Char) : Option Char :=
  [('"', '"'), ('\\', '\\'), ('/', '/'), ('b', '\x08'), ('f', '\x0c'), ('n', '\n'), ('r', '\r'),
    ('t', '\t')].lookup c

def pairedUnits (high low : Nat) : Char :=
  Char.ofNat (0x10000 + (high - 0xD800) * 0x400 + (low - 0xDC00))

def isHigh (unit : Nat) : Bool := 0xD800 <= unit && unit <= 0xDBFF

def isLow (unit : Nat) : Bool := 0xDC00 <= unit && unit <= 0xDFFF

def unicodeEscape (text : List Char) : Except Malformed (Char × List Char) := do
  let (unit, rest) ← codeUnit text
  if isLow unit then .error .grammar
  else if isHigh unit then
    match rest with
    | '\\' :: 'u' :: more =>
      let (low, rest) ← codeUnit more
      if isLow low then .ok (pairedUnits unit low, rest) else .error .grammar
    | [] | ['\\'] => .error .ending
    | _ => .error .grammar
  else .ok (Char.ofNat unit, rest)

-- The character of the escape behind a backslash. When the string is not kept, code units are not
-- paired.
def escape (kept : Bool) : List Char -> Except Malformed (Char × List Char)
  | [] => .error .ending
  | 'u' :: rest => if kept then unicodeEscape rest else (codeUnit rest).map (fun (_, r) => ('u', r))
  | c :: rest =>
    match plainEscape? c with
    | some d => .ok (d, rest)
    | none => .error .grammar

def stringIn (kept : Bool) : Nat -> List Char -> Except Malformed (List Char × List Char)
  | 0, _ => .error .ending
  | _, [] => .error .ending
  | fuel + 1, c :: rest =>
    if c = '"' then .ok ([], rest)
    else if c = '\\' then do
      let (d, rest) ← escape kept rest
      let (more, rest) ← stringIn kept fuel rest
      .ok (d :: more, rest)
    else if c.toNat < 0x20 then .error .grammar
    else do
      let (more, rest) ← stringIn kept fuel rest
      .ok (c :: more, rest)

def string (kept : Bool) (text : List Char) : Except Malformed (List Char × List Char) :=
  stringIn kept (text.length + 1) text

def dropDigits (text : List Char) : List Char :=
  text.dropWhile Char.isDigit

def someDigits (atEnd : Malformed) : List Char -> Except Malformed (List Char)
  | [] => .error atEnd
  | c :: rest => if c.isDigit then .ok (dropDigits rest) else .error .grammar

def wholePart (atEnd : Malformed) : List Char -> Except Malformed (List Char)
  | '0' :: c :: rest => if c.isDigit then .error .grammar else .ok (c :: rest)
  | text => someDigits atEnd text

def fraction (atEnd : Malformed) : List Char -> Except Malformed (List Char)
  | '.' :: rest => someDigits atEnd rest
  | text => .ok text

def exponent (atEnd : Malformed) : List Char -> Except Malformed (List Char)
  | [] => .ok []
  | c :: rest =>
    if c = 'e' || c = 'E' then
      match rest with
      | '+' :: more => someDigits atEnd more
      | '-' :: more => someDigits atEnd more
      | more => someDigits atEnd more
    else .ok (c :: rest)

def number (atEnd : Malformed) (text : List Char) : Except Malformed (List Char) :=
  let text := match text with
    | '-' :: rest => rest
    | text => text
  wholePart atEnd text >>= fraction atEnd >>= exponent atEnd

end Json

end StylesheetImports
