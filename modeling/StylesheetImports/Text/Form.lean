import StylesheetImports.Text.Percent
import StylesheetImports.Text.Pieces

set_option autoImplicit false

namespace StylesheetImports

namespace Form

def isPlain (b : UInt8) : Bool :=
  let n := b.toNat
  (48 <= n && n <= 57) || (65 <= n && n <= 90) || (97 <= n && n <= 122)
    || n = 42 || n = 45 || n = 46 || n = 95

def encodeByte (b : UInt8) : List Char :=
  if isPlain b then [Char.ofNat b.toNat] else if b = 32 then ['+'] else Percent.triple b

def encode (text : List Char) : List Char :=
  (Utf8.encode text).flatMap encodeByte

def decode (written : List Char) : List Char :=
  Utf8.decodeLossy (Percent.decode (Utf8.encode (written.map (fun c => if c = '+' then ' ' else c))))

def pairs (written : List Char) : List (List Char × List Char) :=
  (pieces (· = '&') written).filterMap fun pair =>
    if pair = [] then none
    else some (decode (pair.takeWhile (· ≠ '=')), decode ((pair.dropWhile (· ≠ '=')).drop 1))

end Form

end StylesheetImports
