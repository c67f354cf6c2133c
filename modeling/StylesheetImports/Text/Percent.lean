import StylesheetImports.Text.Utf8

set_option autoImplicit false

namespace StylesheetImports

namespace Percent

def digit (n : Nat) : Char :=
  if n < 10 then Char.ofNat (48 + n) else Char.ofNat (55 + n)

def digitValue? (b : UInt8) : Option Nat :=
  let n := b.toNat
  if 48 <= n && n <= 57 then some (n - 48)
  else if 65 <= n && n <= 70 then some (n - 55)
  else if 97 <= n && n <= 102 then some (n - 87)
  else none

def triple (b : UInt8) : List Char :=
  ['%', digit (b.toNat / 16), digit (b.toNat % 16)]

def encodeByte (escaped : UInt8 -> Bool) (b : UInt8) : List Char :=
  if 0x80 <= b.toNat || escaped b then triple b else [Char.ofNat b.toNat]

def encode (escaped : UInt8 -> Bool) (bytes : Bytes) : List Char :=
  bytes.flatMap (encodeByte escaped)

def decode : Bytes -> Bytes
  | 37 :: high :: low :: rest =>
    match digitValue? high, digitValue? low with
    | some h, some l => UInt8.ofNat (h * 16 + l) :: decode rest
    | _, _ => 37 :: decode (high :: low :: rest)
  | b :: rest => b :: decode rest
  | [] => []

end Percent

end StylesheetImports
