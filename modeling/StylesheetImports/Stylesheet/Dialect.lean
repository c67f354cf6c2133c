import StylesheetImports.Path.Basic

set_option autoImplicit false

namespace StylesheetImports

inductive Dialect where
  | css
  | indented
  | scss
  deriving DecidableEq

namespace Dialect

def ofPath (p : Path) : Dialect :=
  if p.hasExtension "css" then .css
  else if p.hasExtension "sass" then .indented
  else .scss

def name : Dialect -> String
  | .css => "css"
  | .indented => "indented"
  | .scss => "scss"

end Dialect

end StylesheetImports
