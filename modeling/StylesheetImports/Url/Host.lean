import StylesheetImports.Domain.Name
import StylesheetImports.Url.Basic

set_option autoImplicit false

namespace StylesheetImports

namespace Url

def ipv4Number? : List Char -> Option Nat
  | [] => none
  | '0' :: 'x' :: rest => numberIn? 16 rest
  | '0' :: 'X' :: rest => numberIn? 16 rest
  | '0' :: c :: rest => numberIn? 8 (c :: rest)
  | text => numberIn? 10 text

def domainParts (domain : List Char) : List (List Char) :=
  let parts := pieces (· = '.') domain
  if parts.getLast? = some [] then parts.dropLast else parts

def endsInNumber (domain : List Char) : Bool :=
  match (domainParts domain).getLast? with
  | none => false
  | some last => (last ≠ [] && last.all Char.isDigit) || (ipv4Number? last).isSome

-- The value of the parts of an address. The last part fills the bytes that the others leave.
def ipv4Value? (numbers : List Nat) : Option Nat :=
  match numbers.getLast? with
  | none => none
  | some last =>
    let front := numbers.dropLast
    if front.length < 4 && front.all (· <= 255) && last < 1 <<< (8 * (4 - front.length)) then
      some (front.zipIdx.foldl (fun sum (n, i) => sum + n <<< (8 * (3 - i))) last)
    else none

def renderIpv4 (address : Nat) : List Char :=
  ['.'].intercalate ([3, 2, 1, 0].map (fun i => digits ((address >>> (8 * i)) % 256)))

def ipv6Group? (text : List Char) : Option Nat :=
  if text = [] || 4 < text.length then none else numberIn? 16 text

def ipv6Tail? (text : List Char) : Option (List Nat) :=
  let byte? (part : List Char) : Option Nat :=
    if part = [] || (part.head? = some '0' && part ≠ ['0']) then none
    else (numberIn? 10 part).bind (fun n => if n <= 255 then some n else none)
  match (pieces (· = '.') text).mapM byte? with
  | some [a, b, c, d] => some [a * 256 + b, c * 256 + d]
  | _ => none

-- The groups between colons; the last ones may be written in bytes.
def ipv6Groups? (tail : Bool) : List (List Char) -> Option (List Nat)
  | [] => some []
  | [last] =>
    match ipv6Group? last with
    | some n => some [n]
    | none => if tail then ipv6Tail? last else none
  | group :: rest => do
    let n ← ipv6Group? group
    let more ← ipv6Groups? tail rest
    some (n :: more)

def splitDoubleColon : List Char -> Option (List Char × List Char)
  | [] => none
  | ':' :: ':' :: rest => some ([], rest)
  | c :: rest => (splitDoubleColon rest).map (fun (before, after) => (c :: before, after))

/-- The eight groups of an address. `::` stands for one or more groups of zero. -/
def ipv6? (text : List Char) : Option (List Nat) :=
  let side (tail : Bool) (part : List Char) :=
    if part = [] then some [] else ipv6Groups? tail (pieces (· = ':') part)
  match splitDoubleColon text with
  | none => (side true text).bind (fun groups => if groups.length = 8 then some groups else none)
  | some (before, after) => do
    let front ← side false before
    let back ← side true after
    if front.length + back.length <= 7 then
      some (front ++ List.replicate (8 - front.length - back.length) 0 ++ back)
    else none

def zeros (groups : List Nat) : Nat :=
  (groups.takeWhile (· = 0)).length

def longestZeros : List Nat -> Nat × Nat
  | [] => (0, 0)
  | group :: rest =>
    let here := zeros (group :: rest)
    let (start, length) := longestZeros rest
    if length <= here then (0, here) else (start + 1, length)

def renderIpv6 (groups : List Nat) : List Char :=
  let text (part : List Nat) := [':'].intercalate (part.map (Nat.toDigits 16))
  let (start, length) := longestZeros groups
  let inside :=
    if length < 2 then text groups
    else text (groups.take start) ++ ':' :: ':' :: text (groups.drop (start + length))
  '[' :: inside ++ [']']

def domain? (text : List Char) : Except Error (List Char) :=
  match Domain.toAscii? (Utf8.decodeLossy (Percent.decode (Utf8.encode text))) with
  | some name => .ok name
  | none => .error .invalidDomain

def bracketed? (text : List Char) : Except Error (List Char) :=
  if text.getLast? = some ']' then
    match ipv6? (text.drop 1).dropLast with
    | some groups => .ok (renderIpv6 groups)
    | none => .error .invalidIpv6
  else .error .invalidIpv6

def host? (text : List Char) : Except Error (List Char) :=
  if text.head? = some '[' then bracketed? text
  else
    match domain? text with
    | .error e => .error e
    | .ok [] => .error .emptyHost
    | .ok domain =>
      if endsInNumber domain then
        match ((domainParts domain).mapM ipv4Number?).bind ipv4Value? with
        | some address => .ok (renderIpv4 address)
        | none => .error .invalidIpv4
      else .ok domain

def plainHost? (text : List Char) : Except Error (List Char) :=
  if text.head? = some '[' then bracketed? text
  else if text.any (fun c => c = '\x00' || "\t\n\r #/:<>?@[\\]^|".toList.contains c) then
    .error .invalidHostCharacter
  else .ok (Percent.encode isControl (Utf8.encode text))

end Url

end StylesheetImports
