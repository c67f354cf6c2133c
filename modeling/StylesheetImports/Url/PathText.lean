import StylesheetImports.Url.Basic

set_option autoImplicit false

namespace StylesheetImports

namespace Url

def isIgnored (c : Char) : Bool :=
  c = '\t' || c = '\n' || c = '\r'

def visible (text : List Char) : List Char :=
  text.filter (fun c => !isIgnored c)

def endsPath (c : Char) : Bool :=
  c = '?' || c = '#'

def isSlash (special : Bool) (c : Char) : Bool :=
  c = '/' || (special && c = '\\')

def isDrive : List Char -> Bool
  | [c, d] => c.isAlpha && (d = ':' || d = '|')
  | _ => false

def isPlainDrive (text : List Char) : Bool :=
  isDrive text && text.getLast? = some ':'

def startsWithDrive (text : List Char) : Bool :=
  isDrive (text.take 2) && match text[2]? with
    | none => true
    | some c => endsPath c || isSlash true c

def plainDots : List Char -> List Char
  | '%' :: '2' :: 'e' :: rest => '.' :: plainDots rest
  | '%' :: '2' :: 'E' :: rest => '.' :: plainDots rest
  | c :: rest => c :: plainDots rest
  | [] => []

def lastSegment (path : List Char) : List Char :=
  (path.reverse.takeWhile (· ≠ '/')).reverse

def endsWithSlash (path : List Char) : Bool :=
  path.getLast? = some '/'

def closed (path : List Char) : List Char :=
  if endsWithSlash path then path else path ++ ['/']

def withoutLast (isFile : Bool) (path : List Char) : List Char :=
  let last := lastSegment path
  if isFile && isPlainDrive last then path else path.take (path.length - last.length)

-- Whether the segment before the slash at the end of a path may be taken back: there is one, and it
-- is no drive.
def mayLeave (path : List Char) : Bool :=
  let before := path.dropLast
  before.contains '/' && !startsWithDrive (lastSegment before ++ ['/'])

def leave (isFile : Bool) (path : List Char) : List Char :=
  withoutLast isFile (if endsWithSlash path && mayLeave path then path.dropLast else path)

structure Draft where
  path : List Char
  start : Nat
  onDrive : Bool

namespace Draft

-- The path with characters that stand together added to its last segment. Behind a drive that is
-- all of the path comes a slash first.
def add (isFile : Bool) (d : Draft) (chars : List Char) : Draft :=
  let written := Percent.encode inPath (Utf8.encode chars)
  if isFile && isPlainDrive (d.path.drop 1) then
    { d with path := d.path ++ '/' :: written, start := d.start + 1 }
  else { d with path := d.path ++ written }

def addSegment (isFile : Bool) (d : Draft) (segment : List Char) : Draft :=
  ((pieces isIgnored segment).filter (· ≠ [])).foldl (add isFile) { d with start := d.path.length }

def close (isFile slash : Bool) (d : Draft) : Draft :=
  let before := d.path.take d.start
  let segment := d.path.drop d.start
  if plainDots segment = ['.', '.'] then
    let path := leave isFile before
    { d with path := if slash then closed path else path }
  else if plainDots segment = ['.'] then { d with path := closed before }
  else
    let drive := isFile && d.start = 1 && isDrive segment
    let segment := if drive then segment.take 1 ++ [':'] else segment
    { d with path := before ++ segment ++ (if slash then ['/'] else []), onDrive := d.onDrive || drive }

def addAll (isFile : Bool) (d : Draft) : List (List Char) -> Draft
  | [] => d
  | [last] => (d.addSegment isFile last).close isFile false
  | segment :: more => addAll isFile ((d.addSegment isFile segment).close isFile true) more

def ofText (isFile special : Bool) (path text : List Char) : Draft :=
  addAll isFile { path, start := path.length, onDrive := false }
    (pieces (isSlash special) (text.takeWhile (fun c => !endsPath c)))

end Draft

def namesOf (path : List Char) : List (List Char) :=
  if path = [] then [] else pieces (· = '/') (path.drop 1)

def fileNames (path : List Char) : List (List Char) :=
  namesOf ('/' :: path.dropWhile (· = '/'))

def pathOf (u : Url) : List Char :=
  match u.route with
  | .segments names => renderSegments names
  | .text _ => []

end Url

end StylesheetImports
