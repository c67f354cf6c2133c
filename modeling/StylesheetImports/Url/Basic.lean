import StylesheetImports.Text.Percent
import StylesheetImports.Text.Pieces

set_option autoImplicit false

namespace StylesheetImports

namespace Url

structure Authority where
  username : List Char
  password : List Char
  host : List Char
  portNumber : Option Nat
  deriving DecidableEq

-- A path of segments below a root, or text without a structure such as that of `mailto:`.
inductive Route where
  | segments (names : List (List Char))
  | text (chars : List Char)
  deriving DecidableEq

end Url

structure Url where
  scheme : List Char
  authority : Option Url.Authority
  route : Url.Route
  query : Option (List Char)
  fragment : Option (List Char)
  deriving DecidableEq

namespace Url

inductive Error where
  | emptyHost
  | invalidDomain
  | invalidHostCharacter
  | invalidPortNumber
  | invalidIpv4
  | invalidIpv6
  | relativeWithoutBase
  | relativeToUnstructured
  deriving DecidableEq

def Error.message : Error -> String
  | .emptyHost => "empty host"
  | .invalidDomain => "invalid international domain name"
  | .invalidHostCharacter => "invalid domain character"
  | .invalidPortNumber => "invalid port number"
  | .invalidIpv4 => "invalid IPv4 address"
  | .invalidIpv6 => "invalid IPv6 address"
  | .relativeWithoutBase => "relative URL without a base"
  | .relativeToUnstructured => "relative URL with a cannot-be-a-base base"

def fileScheme : List Char := "file".toList

def isFile (u : Url) : Bool :=
  u.scheme = fileScheme

def defaultPortNumber? (scheme : List Char) : Option Nat :=
  [("http".toList, 80), ("https".toList, 443), ("ws".toList, 80), ("wss".toList, 443),
    ("ftp".toList, 21)].lookup scheme

def isSpecial (scheme : List Char) : Bool :=
  scheme = fileScheme || (defaultPortNumber? scheme).isSome

def digits (n : Nat) : List Char :=
  Nat.toDigits 10 n

def renderSegments (names : List (List Char)) : List Char :=
  names.flatMap ('/' :: ·)

def Authority.render (a : Authority) : List Char :=
  let password := if a.password = [] then [] else ':' :: a.password
  let login := if a.username = [] && a.password = [] then [] else a.username ++ password ++ ['@']
  let service := match a.portNumber with
    | none => []
    | some n => ':' :: digits n
  '/' :: '/' :: login ++ a.host ++ service

-- The path of a locator. Without a server, a path that begins with two slashes is marked by a `.`.
def renderRoute (authority : Option Authority) : Route -> List Char
  | .text chars => chars
  | .segments names =>
    match authority, names with
    | none, [] :: _ :: _ => '/' :: '.' :: renderSegments names
    | _, _ => renderSegments names

def render (u : Url) : List Char :=
  let query := match u.query with
    | none => []
    | some q => '?' :: q
  let fragment := match u.fragment with
    | none => []
    | some f => '#' :: f
  u.scheme ++ ':' :: (u.authority.map Authority.render).getD [] ++ renderRoute u.authority u.route
    ++ query ++ fragment

instance : ToString Url where
  toString u := String.ofList u.render

def isControl (b : UInt8) : Bool :=
  b.toNat < 0x20 || b.toNat = 0x7F

def bytesOf (text : String) : Bytes := Utf8.encode text.toList

def inFragment (b : UInt8) : Bool :=
  isControl b || (bytesOf " \"<>`").contains b

def inQuery (special : Bool) (b : UInt8) : Bool :=
  isControl b || (bytesOf " \"#<>").contains b || (special && b = 39)

def inPath (b : UInt8) : Bool :=
  inFragment b || (bytesOf "#?\x7b\x7d").contains b

def inLogin (b : UInt8) : Bool :=
  inPath b || (bytesOf "/:;=@[\\]^|").contains b

def inFileName (b : UInt8) : Bool :=
  inPath b || (bytesOf "/%\\").contains b

end Url

end StylesheetImports
