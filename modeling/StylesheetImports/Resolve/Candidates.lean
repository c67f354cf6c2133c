import StylesheetImports.Storage.Directory

set_option autoImplicit false

namespace StylesheetImports

structure Stem where
  name : List Char
  extensions : List (List Char)
  deriving DecidableEq

namespace Stem

def known : List (List Char) := [".sass".toList, ".scss".toList, ".css".toList]

def extension? (name : List Char) : Option (List Char) :=
  known.find? (fun ext => ext.length < name.length && ext.isSuffixOf name)

def ofName (name : List Char) : Stem :=
  match extension? name with
  | some ext => { name := name.take (name.length - ext.length), extensions := [ext] }
  | none => { name, extensions := known }

-- What marks a variant for `@import` alone.
def importMark : List Char := ".import".toList

/-- The names to try with `mark` before the extension: each one plain, then as a partial. -/
def candidates (s : Stem) (mark : List Char) : List String :=
  s.extensions.flatMap fun ext =>
    [String.ofList (s.name ++ mark ++ ext), String.ofList ('_' :: s.name ++ mark ++ ext)]

/-- The files of a directory that a stem means. Variants for `@import` hide the others. -/
def hits (s : Stem) (d : Directory) (fromImport : Bool) : List String :=
  let imports := if fromImport then (s.candidates importMark).filter d.hasFile else []
  if imports = [] then (s.candidates []).filter d.hasFile else imports

end Stem

inductive Choice where
  | none
  | one (file : String)
  | several (files : List String)
  deriving DecidableEq

namespace Choice

def isCss (file : String) : Bool :=
  ".css".toList.isSuffixOf file.toList

/-- One file is chosen, or the only one that is not plain CSS. -/
def ofFiles : List String -> Choice
  | [] => .none
  | [file] => .one file
  | files =>
    match files.filter (fun file => !isCss file) with
    | [only] => .one only
    | _ => .several files

end Choice

end StylesheetImports
