import StylesheetImports.Text.CompositeTable
import StylesheetImports.Text.Mark

set_option autoImplicit false

namespace StylesheetImports

def composites : List (Nat × List (CodeRange × Nat)) :=
  compositeTexts.map (fun (second, firsts) => (second, CodeRange.readTable firsts))

def syllable? (first second : Nat) : Option Nat :=
  if 0x1100 <= first && first <= 0x1112 && 0x1161 <= second && second <= 0x1175 then
    some (0xAC00 + ((first - 0x1100) * 21 + (second - 0x1161)) * 28)
  else if 0xAC00 <= first && first <= 0xD7A3 && (first - 0xAC00) % 28 = 0 && 0x11A8 <= second
      && second <= 0x11C2 then
    some (first + (second - 0x11A7))
  else none

def syllableParts? (n : Nat) : Option (Nat × Nat) :=
  if 0xAC00 <= n && n <= 0xD7A3 then
    let index := n - 0xAC00
    if index % 28 = 0 then some (0x1100 + index / 588, 0x1161 + index / 28 % 21)
    else some (n - index % 28, 0x11A7 + index % 28)
  else none

def compositeNumber? (first second : Char) : Option Nat :=
  match syllable? first.toNat second.toNat with
  | some n => some n
  | none =>
    let firsts := (composites.lookup second.toNat).getD []
    (firsts.find? (fun (range, _) => range.contains first)).map Prod.snd

def composite? (first second : Char) : Option Char :=
  (compositeNumber? first second).map Char.ofNat

def firstPart? (firsts : List (CodeRange × Nat)) (c : Char) : Option Nat :=
  (firsts.find? (fun (_, n) => n = c.toNat)).map (fun (range, _) => range.first)

def parts? (c : Char) : Option (Char × Char) :=
  let numbers :=
    match syllableParts? c.toNat with
    | some pair => some pair
    | none => composites.findSome? fun (second, firsts) =>
        (firstPart? firsts c).map (fun first => (first, second))
  numbers.map (fun (first, second) => (Char.ofNat first, Char.ofNat second))

def decomposeIn : Nat -> Char -> List Char
  | 0, c => [c]
  | depth + 1, c =>
    match parts? c with
    | some (first, second) => decomposeIn depth first ++ [second]
    | none => [c]

def decompose (c : Char) : List Char :=
  decomposeIn 3 c

def insertMark (c : Char) : List Char -> List Char
  | [] => [c]
  | d :: before =>
    if combiningClass c ≠ 0 && combiningClass c < combiningClass d then d :: insertMark c before
    else c :: d :: before

def orderMarks (text : List Char) : List Char :=
  (text.foldl (fun reversed c => insertMark c reversed) []).reverse

-- The composed form of a text that begins with `base` and the marks `kept`, which stay. A mark is
-- out of reach of the base behind another of its class.
def composeFrom (base : Char) (kept : List Char) : List Char -> List Char
  | [] => base :: kept
  | c :: rest =>
    let inReach := kept.getLast?.all (fun mark => combiningClass mark < combiningClass c)
    match if inReach then composite? base c else none with
    | some composite => composeFrom composite kept rest
    | none =>
      if combiningClass c = 0 then base :: kept ++ composeFrom c [] rest
      else composeFrom base (kept ++ [c]) rest

def composed (text : List Char) : List Char :=
  if text.all (·.toNat < 0x80) then text
  else
    match orderMarks (text.flatMap decompose) with
    | [] => []
    | base :: rest => composeFrom base [] rest

end StylesheetImports
