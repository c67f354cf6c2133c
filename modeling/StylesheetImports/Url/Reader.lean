import StylesheetImports.Url.Host
import StylesheetImports.Url.PathText

set_option autoImplicit false

namespace StylesheetImports

namespace Url

def trim (text : List Char) : List Char :=
  let idle (c : Char) : Bool := c.toNat <= 0x20
  ((text.dropWhile idle).reverse.dropWhile idle).reverse

def scheme? : List Char -> Option (List Char × List Char)
  | [] => none
  | c :: rest =>
    if c.isAlpha then
      let isNext (d : Char) : Bool := d.isAlphanum || d = '+' || d = '-' || d = '.'
      match rest.dropWhile isNext with
      | ':' :: after => some ((c :: rest.takeWhile isNext).map Char.toLower, after)
      | _ => none
    else none

def dropSlash (special : Bool) : List Char -> List Char
  | [] => []
  | c :: rest => if isSlash special c then rest else c :: rest

def finish (scheme : List Char) (authority : Option Authority) (route : Route) (text : List Char) : Url :=
  let afterPath := (visible text).dropWhile (fun c => !endsPath c)
  let query := match afterPath.takeWhile (· ≠ '#') with
    | '?' :: q => some (Percent.encode (inQuery (isSpecial scheme)) (Utf8.encode q))
    | _ => none
  let fragment := match afterPath.dropWhile (· ≠ '#') with
    | _ :: f => some (Percent.encode inFragment (Utf8.encode f))
    | [] => none
  { scheme, authority, route, query, fragment }

def finishPath (scheme : List Char) (authority : Option Authority) (path text : List Char) : Url :=
  finish scheme authority (.segments (namesOf (Draft.ofText false (isSpecial scheme) path text).path)) text

def withFragment (base : Url) (text : List Char) : Url :=
  { base with fragment := some (Percent.encode inFragment (Utf8.encode text)) }

def authorityText (special : Bool) (text : List Char) : List Char × List Char :=
  let ends (c : Char) : Bool := endsPath c || isSlash special c
  (text.takeWhile (fun c => !ends c), text.dropWhile (fun c => !ends c))

def splitLogin (text : List Char) : Option (List Char) × List Char :=
  let reversed := text.reverse
  match reversed.dropWhile (· ≠ '@') with
  | [] => (none, text)
  | _ :: login => (some login.reverse, (reversed.takeWhile (· ≠ '@')).reverse)

def splitPortNumber (brackets : Bool) : List Char -> List Char × Option (List Char)
  | [] => ([], none)
  | c :: rest =>
    if c = ':' && !brackets then ([], some rest)
    else
      let (host, number) := splitPortNumber (if c = '[' then true else if c = ']' then false else brackets) rest
      (c :: host, number)

def portNumber? (scheme : List Char) (text : List Char) : Except Error (Option Nat) :=
  if text = [] then .ok none
  else
    match numberIn? 10 text with
    | none => .error .invalidPortNumber
    | some n =>
      if 65535 < n then .error .invalidPortNumber
      else .ok (if defaultPortNumber? scheme = some n then none else some n)

def afterSlashes (scheme : List Char) (text : List Char) : Except Error Url := do
  let special := isSpecial scheme
  let (authority, rest) := authorityText special text
  let (login, server) := splitLogin authority
  let (host, number) := splitPortNumber false server
  let service := number.getD []
  let rest := service.dropWhile (· ≠ '\\') ++ rest
  let part (chars : List Char) := Percent.encode inLogin (Utf8.encode chars)
  let username := part ((login.getD []).takeWhile (· ≠ ':'))
  let password := part (((login.getD []).dropWhile (· ≠ ':')).drop 1)
  if login = some [] && server = [] && rest ≠ [] then .error .emptyHost
  else if host = [] && (special || number.isSome) then .error .emptyHost
  else do
    let host ← if special then host? host else plainHost? host
    let portNumber ← portNumber? scheme (service.takeWhile (· ≠ '\\'))
    if host = [] && (username ≠ [] || password ≠ []) then .error .emptyHost
    else
      let authority := some { username, password, host, portNumber }
      if !special && (rest.takeWhile (fun c => !endsPath c)) = [] then
        .ok (finish scheme authority (.segments []) rest)
      else .ok (finishPath scheme authority ['/'] (dropSlash special rest))

def noServer : Authority := { username := [], password := [], host := [], portNumber := none }

def fileServer? (text : List Char) : Except Error Authority :=
  if text = [] then .ok noServer
  else do
    let host ← host? text
    .ok (if host = "localhost".toList then noServer else { noServer with host })

def finishFile (authority : Authority) (path text : List Char) : Url :=
  finish fileScheme (some authority) (.segments (fileNames (Draft.ofText true true path text).path)) text

def fileAfterSlashes (text : List Char) : Except Error Url := do
  let (server, rest) := authorityText true text
  if isDrive (visible server) then .ok (finishFile noServer ['/'] text)
  else
    let authority ← fileServer? (visible server)
    if authority = noServer then .ok (finishFile noServer ['/'] rest)
    else
      let text := dropSlash true rest
      let onDrive := (Draft.ofText true true ['/'] text).onDrive
      .ok (finishFile (if onDrive then noServer else authority) ['/'] text)

-- What a path with one slash, which `text` follows, takes from its base: the drive, or else the
-- server.
def fileRoot (text : List Char) (base : Option Url) : Authority × List Char :=
  match base with
  | none => (noServer, ['/'])
  | some base =>
    if startsWithDrive text then (noServer, ['/'])
    else
      let first := (pathOf base).drop 1 |>.takeWhile (· ≠ '/')
      if isPlainDrive first then (noServer, '/' :: first ++ ['/'])
      else (base.authority.getD noServer, ['/'])

def dropFirst (text : List Char) : List Char :=
  (text.dropWhile isIgnored).drop 1

def readFile (text : List Char) (base : Option Url) : Except Error Url :=
  match visible text with
  | [] =>
    match base with
    | none => .ok (finishFile noServer ['/'] [])
    | some base => .ok { base with fragment := none }
  | c :: rest =>
    if isSlash true c then
      if rest.head?.any (isSlash true) then fileAfterSlashes (dropFirst (dropFirst text))
      else
        let (authority, path) := fileRoot rest base
        .ok (finishFile authority path (dropFirst text))
    else
      match base with
      | none => .ok (finishFile noServer ['/'] text)
      | some base =>
        if c = '#' then .ok (withFragment base rest)
        else if c = '?' then .ok (finish fileScheme base.authority base.route text)
        else if startsWithDrive (c :: rest) then .ok (finishFile noServer ['/'] text)
        else .ok (finishFile (base.authority.getD noServer) (withoutLast true (pathOf base)) text)

def readRelative (text : List Char) (base : Url) : Except Error Url :=
  match text with
  | [] => .ok { base with fragment := none }
  | c :: rest =>
    if c = '#' then .ok (withFragment base rest)
    else if c = '?' then .ok (finish base.scheme base.authority base.route text)
    else if isSlash true c then
      match rest with
      | d :: inside =>
        if isSlash true d then
          afterSlashes base.scheme (if c = '/' && d = '/' then inside else inside.dropWhile (isSlash true))
        else .ok (finishPath base.scheme base.authority ['/'] rest)
      | [] => .ok (finishPath base.scheme base.authority ['/'] rest)
    else
      let path := withoutLast false (pathOf base)
      .ok (finishPath base.scheme base.authority (if path = [] then ['/'] else path) text)

def readPlain (scheme : List Char) (text : List Char) : Except Error Url :=
  match text with
  | '/' :: '/' :: rest => afterSlashes scheme rest
  | '/' :: rest => .ok (finishPath scheme none ['/'] rest)
  | _ =>
    let path := text.takeWhile (fun c => !endsPath c)
    .ok (finish scheme none (.text (Percent.encode isControl (Utf8.encode path))) text)

def read (base : Option Url) (text : List Char) : Except Error Url :=
  let text := trim text
  match scheme? (visible text) with
  | some (scheme, rest) =>
    if scheme = fileScheme then readFile ((text.dropWhile (· ≠ ':')).drop 1) (base.filter isFile)
    else if isSpecial scheme then
      let slashes := (rest.takeWhile (isSlash true)).length
      match base.filter (fun b => b.scheme = scheme && slashes < 2) with
      | some base => readRelative rest base
      | none => afterSlashes scheme (rest.dropWhile (isSlash true))
    else readPlain scheme rest
  | none =>
    match base with
    | none => .error .relativeWithoutBase
    | some base =>
      match base.route, visible text with
      | _, '#' :: rest => .ok (withFragment base rest)
      | .text _, _ => .error .relativeToUnstructured
      | .segments _, seen => if base.isFile then readFile text (some base) else readRelative seen base

/-- The locator that a text writes on its own. -/
def parse (text : String) : Except Error Url :=
  read none text.toList

/-- The locator that a text names in a document at `base`. -/
def join (base : Url) (text : String) : Except Error Url :=
  read (some base) text.toList

end Url

end StylesheetImports
