import StylesheetImports.Stylesheet.Token

set_option autoImplicit false

namespace StylesheetImports

structure Argument where
  span : Span
  value : String
  deriving DecidableEq

structure Specifier where
  span : Span
  value : String
  fromImport : Bool
  deriving DecidableEq

structure Scan where
  arguments : List Argument
  specifiers : List Specifier
  deriving DecidableEq

namespace Scan

def empty : Scan := { arguments := [], specifiers := [] }

def ofTokens (start : Nat) : List Token -> Scan
  | [] => empty
  | t :: tokens =>
    let span := { start, stop := start + Utf8.size t.text }
    let later := ofTokens span.stop tokens
    match t.kind with
    | .plain => later
    | .argument value => { later with arguments := { span, value := String.ofList value } :: later.arguments }
    | .specifier value fromImport =>
      { later with specifiers := { span, value := String.ofList value, fromImport } :: later.specifiers }

def ofText (text : String) : Scan :=
  ofTokens 0 (Token.ofText text.toList)

end Scan

end StylesheetImports
