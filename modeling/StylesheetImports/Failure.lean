import StylesheetImports.Json.Lexeme
import StylesheetImports.Url.File

set_option autoImplicit false

namespace StylesheetImports

inductive Failure where
  | ambiguous (specifier : String) (candidates : List Path)
  | io (message : String)
  | configUnreadable (path : Path) (message : String)
  | configMalformed (path : Path) (problem : Malformed)
  | noEntry
  | unreadable (location : Url)
  | notAbsolute (path : Path)
  | tooManySheets (limit : Nat)
  | other (message : String)
  deriving DecidableEq

namespace Failure

def isFatal : Failure -> Bool
  | .ambiguous _ _ => true
  | _ => false

def message : Failure -> String
  | .ambiguous specifier candidates =>
    "It's not clear which file to import for \"" ++ specifier ++ "\". Found:\n"
      ++ "\n".intercalate (candidates.map (fun p => "  " ++ p.display))
  | .io message => "IO error: " ++ message
  | .configUnreadable path message => "Failed to read config at " ++ path.display ++ ": " ++ message
  | .configMalformed path _ => "Failed to parse config at " ++ path.display
  | .noEntry => "no entry stylesheet configured"
  | .unreadable location => "cannot read " ++ location.display
  | .notAbsolute path => "not an absolute path: " ++ path.display
  | .tooManySheets limit => "more than " ++ toString limit ++ " stylesheets"
  | .other message => message

end Failure

end StylesheetImports
