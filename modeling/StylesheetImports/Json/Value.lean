import StylesheetImports.Json.Lexeme
import StylesheetImports.Json.Magnitude

set_option autoImplicit false

namespace StylesheetImports

namespace Json

inductive Frame where
  | list
  | object
  deriving DecidableEq

def scalar (c : Char) (rest : List Char) : Except Malformed (List Char) :=
  if c = 'n' then literal "ull".toList rest
  else if c = 't' then literal "rue".toList rest
  else if c = 'f' then literal "alse".toList rest
  else if c = '"' then (string false rest).map (·.2)
  else if c = '-' || c.isDigit then number .grammar (c :: rest)
  else .error .grammar

def memberName (text : List Char) : Except Malformed (List Char) :=
  match skipSpace text with
  | [] => .error .ending
  | '"' :: rest => do
    let (_, rest) ← string false rest
    match skipSpace rest with
    | [] => .error .ending
    | ':' :: rest => .ok rest
    | _ => .error .grammar
  | _ => .error .grammar

inductive Expected where
  | value
  | firstItem
  | nextItem

def skipIn : Nat -> Expected -> List Frame -> List Char -> Except Malformed (List Char)
  | 0, _, _, _ => .error .ending
  | fuel + 1, .value, frames, text =>
    match skipSpace text with
    | [] => .error .ending
    | '[' :: rest => skipIn fuel .firstItem (.list :: frames) rest
    | '\x7b' :: rest => skipIn fuel .firstItem (.object :: frames) rest
    | c :: rest => scalar c rest >>= skipIn fuel .nextItem frames
  | _, .nextItem, [], text => .ok text
  | _, .firstItem, [], text => .ok text
  | fuel + 1, expected, frame :: frames, text =>
    match skipSpace text, expected, frame with
    | [], _, _ => .error .ending
    | ']' :: rest, _, .list => skipIn fuel .nextItem frames rest
    | '\x7d' :: rest, _, .object => skipIn fuel .nextItem frames rest
    | ',' :: rest, .nextItem, .list => skipIn fuel .value (frame :: frames) rest
    | ',' :: rest, .nextItem, .object => memberName rest >>= skipIn fuel .value (frame :: frames)
    | _, .nextItem, _ => .error .grammar
    | rest, _, .list => skipIn fuel .value (frame :: frames) rest
    | rest, _, .object => memberName rest >>= skipIn fuel .value (frame :: frames)

def skipValue (text : List Char) : Except Malformed (List Char) :=
  skipIn (2 * text.length + 2) .value [] text

def wrongKind (text : List Char) : Malformed :=
  match text with
  | [] => .ending
  | c :: rest =>
    if c = '[' || c = '\x7b' then .data
    else
      let form :=
        if c = '"' then (string true rest).map (·.2)
        else if c = '-' || c.isDigit then number .ending text
        else scalar c rest
      match form with
      | .error e => e
      | .ok _ => if (Scaled.ofText text).isTooGreat then .grammar else .data

def text (input : List Char) : Except Malformed (String × List Char) :=
  match skipSpace input with
  | '"' :: rest => (string true rest).map (fun (chars, rest) => (String.ofList chars, rest))
  | other => .error (wrongKind other)

def textOrNull (input : List Char) : Except Malformed (Option String × List Char) :=
  match skipSpace input with
  | 'n' :: rest => (literal "ull".toList rest).map (fun rest => (none, rest))
  | other => (text other).map (fun (s, rest) => (some s, rest))

def truth (input : List Char) : Except Malformed (Bool × List Char) :=
  match skipSpace input with
  | 't' :: rest => (literal "rue".toList rest).map (fun rest => (true, rest))
  | 'f' :: rest => (literal "alse".toList rest).map (fun rest => (false, rest))
  | other => .error (wrongKind other)

def itemsIn {A : Type} (item : List Char -> Except Malformed (A × List Char)) : Nat -> Bool -> List Char -> Except Malformed (List A × List Char)
  | 0, _, _ => .error .ending
  | fuel + 1, isFirst, input =>
    let next (input : List Char) : Except Malformed (List A × List Char) := do
      let (a, rest) ← item input
      let (more, rest) ← itemsIn item fuel false rest
      .ok (a :: more, rest)
    match skipSpace input with
    | [] => .error .ending
    | ']' :: rest => .ok ([], rest)
    | ',' :: rest =>
      if isFirst then next (',' :: rest)
      else
        match skipSpace rest with
        | [] => .error .ending
        | ']' :: _ => .error .grammar
        | rest => next rest
    | rest => if isFirst then next rest else .error .grammar

def texts (input : List Char) : Except Malformed (List String × List Char) :=
  match skipSpace input with
  | '[' :: rest => itemsIn text (rest.length + 1) true rest
  | other => .error (wrongKind other)

end Json

end StylesheetImports
