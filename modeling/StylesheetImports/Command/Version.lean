set_option autoImplicit false

namespace StylesheetImports

namespace Version

def program : String := "sassbase"

def number : String := "0.2.0"

def line : String := program ++ " " ++ number

end Version

end StylesheetImports
