set_option autoImplicit false

namespace StylesheetImports

namespace Json

inductive Document where
  | null
  | truth (value : Bool)
  | number (value : Nat)
  | text (value : String)
  | list (items : List Document)
  | object (members : List (String × Document))

namespace Document

def ofOption {A : Type} (encode : A -> Document) : Option A -> Document
  | none => .null
  | some a => encode a

def escape? (c : Char) : Option (List Char) :=
  match [('"', '"'), ('\\', '\\'), ('\x08', 'b'), ('\x0c', 'f'), ('\n', 'n'), ('\r', 'r'),
      ('\t', 't')].lookup c with
  | some short => some ['\\', short]
  | none =>
    if c.toNat < 0x20 then
      some ['\\', 'u', '0', '0', Nat.digitChar (c.toNat / 16), Nat.digitChar (c.toNat % 16)]
    else none

def quote (value : String) : List Char :=
  '"' :: value.toList.flatMap (fun c => (escape? c).getD [c]) ++ ['"']

def newLine (level : Nat) : List Char :=
  '\n' :: List.replicate (2 * level) ' '

mutual

def print (level : Nat) : Document -> List Char
  | .null => "null".toList
  | .truth true => "true".toList
  | .truth false => "false".toList
  | .number value => (toString value).toList
  | .text value => quote value
  | .list [] => "[]".toList
  | .list (first :: more) =>
    '[' :: newLine (level + 1) ++ print (level + 1) first ++ printItems (level + 1) more
      ++ newLine level ++ [']']
  | .object [] => ['\x7b', '\x7d']
  | .object ((name, first) :: more) =>
    '\x7b' :: newLine (level + 1) ++ quote name ++ [':', ' '] ++ print (level + 1) first
      ++ printMembers (level + 1) more ++ newLine level ++ ['\x7d']

def printItems (level : Nat) : List Document -> List Char
  | [] => []
  | item :: rest => ',' :: newLine level ++ print level item ++ printItems level rest

def printMembers (level : Nat) : List (String × Document) -> List Char
  | [] => []
  | (name, value) :: rest =>
    ',' :: newLine level ++ quote name ++ [':', ' '] ++ print level value ++ printMembers level rest

end

instance : ToString Document where
  toString d := String.ofList (d.print 0)

end Document

end Json

end StylesheetImports
