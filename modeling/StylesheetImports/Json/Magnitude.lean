import StylesheetImports.Text.Numeral

/-!
How great a number of JSON may be. A number is read as a word of 64 bits times a power of ten; both are
rounded to 53 bits before they are multiplied, so a number near the limit is judged by what it is read as.
-/

set_option autoImplicit false

namespace StylesheetImports

namespace Json

structure Scaled where
  significand : Nat
  power : Int
  deriving DecidableEq

def significandLimit : Nat := 18446744073709551616

def digitOf (c : Char) : Nat :=
  (digitValue? 10 c).getD 0

-- The number of whole digits, read behind `significand`. From the first digit on that finds no
-- room, each only raises the power.
def wholeDigits (significand : Nat) : List Char -> Scaled
  | [] => { significand, power := 0 }
  | c :: rest =>
    let next := significand * 10 + digitOf c
    if next < significandLimit then wholeDigits next rest else { significand, power := rest.length + 1 }

-- The number with places behind its point. From the first place on that finds no room, all are left
-- out.
def Scaled.withPlaces (number : Scaled) : List Char -> Scaled
  | [] => number
  | c :: rest =>
    let next := number.significand * 10 + digitOf c
    if next < significandLimit then
      Scaled.withPlaces { significand := next, power := number.power - 1 } rest
    else number

-- A number to 53 bits, of two as near the one with an even last bit.
def roundBits (n : Nat) : Nat :=
  let shift := n.log2 - 52
  let kept := n >>> shift
  let rest := 2 * (n - kept <<< shift)
  let unit := 1 <<< shift
  if unit < rest || (rest = unit && kept % 2 = 1) then (kept + 1) <<< shift else kept <<< shift

def infinityLimit : Nat :=
  (1 <<< 1024) - (1 <<< 970)

def Scaled.isTooGreat (number : Scaled) : Bool :=
  number.significand ≠ 0 && 0 <= number.power &&
    (308 < number.power ||
      infinityLimit <= roundBits number.significand * roundBits (Nat.pow 10 number.power.toNat))

def Scaled.ofText (text : List Char) : Scaled :=
  let text := if text.head? = some '-' then text.drop 1 else text
  let whole := wholeDigits 0 (text.takeWhile Char.isDigit)
  let rest := text.dropWhile Char.isDigit
  let places := match rest with
    | '.' :: more => more.takeWhile Char.isDigit
    | _ => []
  let rest := match rest with
    | '.' :: more => more.dropWhile Char.isDigit
    | rest => rest
  let decimal (digits : List Char) : Nat := (numberIn? 10 (digits.takeWhile Char.isDigit)).getD 0
  let power : Int := match rest with
    | c :: more =>
      if c = 'e' || c = 'E' then
        match more with
        | '-' :: more => -(decimal more : Int)
        | '+' :: more => decimal more
        | more => decimal more
      else 0
    | [] => 0
  let number := whole.withPlaces places
  { number with power := number.power + power }

end Json

end StylesheetImports
