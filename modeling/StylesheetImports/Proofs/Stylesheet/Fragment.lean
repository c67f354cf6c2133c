import StylesheetImports.Stylesheet.Scan

/-!
Well-formed stylesheets as sequences of fragments: how each fragment is written and what it refers to, with nothing
said of how a stylesheet is read.
-/

set_option autoImplicit false

namespace StylesheetImports

open Utf8 Lexeme

instance : Append Scan where
  append a b := { arguments := a.arguments ++ b.arguments, specifiers := a.specifiers ++ b.specifiers }

namespace Fragment

structure Quoted where
  quote : Char
  body : List Char
  isQuote : isQuote quote = true
  plain : ∀ c ∈ body, c ≠ quote ∧ c ≠ '\\' ∧ c ≠ '\n'

def Quoted.text (q : Quoted) : List Char :=
  q.quote :: q.body ++ [q.quote]

inductive Comment where
  | block (body : List Char) (inside : ¬ ['*', '/'] <:+: body)
  | line (body : List Char) (inside : '\n' ∉ body)

def Comment.text : Comment -> List Char
  | .block body _ => '/' :: '*' :: body ++ ['*', '/']
  | .line body _ => '/' :: '/' :: body ++ ['\n']

inductive Blank where
  | space (c : Char) (blank : isSpace c = true)
  | comment (c : Comment)

def Blank.text : Blank -> List Char
  | .space c _ => [c]
  | .comment c => c.text

def blanks (between : List Blank) : List Char :=
  between.flatMap Blank.text

inductive UrlArgument where
  | quoted (q : Quoted) (after : List Char) (blank : ∀ c ∈ after, isSpace c = true)
  | bare (text after : List Char) (some : text ≠ [])
      (plain : ∀ c ∈ text, isSpace c = false ∧ isQuote c = false ∧ c ≠ '(' ∧ c ≠ ')' ∧ c ≠ '\\')
      (noBraces : ¬ ['#', '\x7b'] <:+: text) (blank : ∀ c ∈ after, c = ' ' ∨ c = '\t')

namespace UrlArgument

def written : UrlArgument -> List Char
  | .quoted q _ _ => q.text
  | .bare text _ _ _ _ _ => text

def after : UrlArgument -> List Char
  | .quoted _ after _ => after
  | .bare _ after _ _ _ _ => after

def value : UrlArgument -> List Char
  | .quoted q _ _ => q.body
  | .bare text _ _ _ _ _ => text

end UrlArgument

-- A space, `url(` in any letter case, white space, and an argument.
structure UrlCall where
  opening : List Char
  isOpening : opening.map Char.toLower = ['u', 'r', 'l', '(']
  before : List Char
  blank : ∀ c ∈ before, isSpace c = true
  argument : UrlArgument

namespace UrlCall

def text (u : UrlCall) : List Char :=
  ' ' :: u.opening ++ u.before ++ u.argument.written ++ u.argument.after ++ [')']

def argumentAt (u : UrlCall) (start : Nat) : Argument :=
  let first := start + size (' ' :: u.opening ++ u.before)
  { span := { start := first, stop := first + size u.argument.written }
    value := String.ofList u.argument.value }

end UrlCall

-- A specifier of a rule with what stands around it.
structure Item where
  before : List Blank
  specifier : Quoted
  after : List Blank

namespace Item

def text (i : Item) : List Char :=
  blanks i.before ++ i.specifier.text ++ blanks i.after

def specifierAt (i : Item) (fromImport : Bool) (start : Nat) : Specifier :=
  let first := start + size (blanks i.before)
  { span := { start := first, stop := first + size i.specifier.text }
    value := String.ofList i.specifier.body
    fromImport }

def listed (i : Item) (more : List Item) : List Char :=
  i.text ++ more.flatMap fun j => ',' :: j.text

def specifiersAt (fromImport : Bool) (start : Nat) (i : Item) : List Item -> List Specifier
  | [] => [i.specifierAt fromImport start]
  | j :: more => i.specifierAt fromImport start :: specifiersAt fromImport (start + size (i.text ++ [','])) j more

end Item

inductive Rule where
  | use (item : Item)
  | forward (item : Item)
  | imports (first : Item) (more : List Item)

namespace Rule

def name : Rule -> List Char
  | .use _ => "use".toList
  | .forward _ => "forward".toList
  | .imports _ _ => "import".toList

def isImport : Rule -> Bool
  | .imports _ _ => true
  | _ => false

def first : Rule -> Item
  | .use item => item
  | .forward item => item
  | .imports first _ => first

def more : Rule -> List Item
  | .imports _ more => more
  | _ => []

def text (r : Rule) : List Char :=
  '@' :: r.name ++ Item.listed r.first r.more ++ [';']

def specifiersAt (r : Rule) (start : Nat) : List Specifier :=
  Item.specifiersAt r.isImport (start + size ('@' :: r.name)) r.first r.more

end Rule

end Fragment

inductive Fragment where
  | filler (text : List Char) (plain : ∀ c ∈ text, isQuote c = false ∧ c ≠ '/' ∧ c ≠ '@' ∧ c ≠ '(')
  | comment (c : Fragment.Comment)
  | string (q : Fragment.Quoted)
  | url (u : Fragment.UrlCall)
  | rule (r : Fragment.Rule)

namespace Fragment

def text : Fragment -> List Char
  | .filler text _ => text
  | .comment c => c.text
  | .string q => q.text
  | .url u => u.text
  | .rule r => r.text

def referencesAt (start : Nat) : Fragment -> Scan
  | .url u => { arguments := [u.argumentAt start], specifiers := [] }
  | .rule r => { arguments := [], specifiers := r.specifiersAt start }
  | _ => .empty

def references (start : Nat) : List Fragment -> Scan
  | [] => .empty
  | f :: more => f.referencesAt start ++ references (start + size f.text) more

end Fragment

end StylesheetImports
