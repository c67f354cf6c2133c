import StylesheetImports.Text.Numeral

/-!
Labels in ASCII: first the ASCII characters of a label, then, for each other character in ascending order, how
far it lies from the one before. A distance counts the places in the label for every character passed over. It
is written in digits of growing weight, with the smallest weight first.
-/

set_option autoImplicit false

namespace StylesheetImports

namespace Punycode

def digit (n : Nat) : Char :=
  if n < 26 then Char.ofNat (97 + n) else Char.ofNat (22 + n)

def digitValue? (c : Char) : Option Nat :=
  if 'a' <= c && c <= 'z' then some (c.toNat - 97)
  else if c.isDigit then some (c.toNat - 22)
  else none

-- The value below which a digit at `place` is the last one. Places are counted from 36 in steps of
-- 36.
def threshold (bias place : Nat) : Nat :=
  if place <= bias then 1 else if bias + 26 <= place then 26 else place - bias

theorem threshold_pos (bias place : Nat) : 0 < threshold bias place := by
  unfold threshold
  split
  next => omega
  next => split <;> omega

def cuts (n : Nat) : Nat × Nat :=
  if n <= 455 then (0, n)
  else
    let (count, rest) := cuts (n / 35)
    (count + 1, rest)
termination_by n
decreasing_by omega

def adapted (distance count : Nat) (isFirst : Bool) : Nat :=
  let scaled := if isFirst then distance / 700 else distance / 2
  let (n, rest) := cuts (scaled + scaled / count)
  36 * n + 36 * rest / (rest + 38)

def distanceDigits (bias place n : Nat) : List Char :=
  let t := threshold bias place
  if n < t then [digit n]
  else digit (t + (n - t) % (36 - t)) :: distanceDigits bias (place + 36) ((n - t) / (36 - t))
termination_by n
decreasing_by
  have := threshold_pos bias place
  exact Nat.lt_of_le_of_lt (Nat.div_le_self _ _) (by omega)

structure Writing where
  distance : Nat
  bias : Nat
  count : Nat
  digits : List Char

-- Writes one character of a label when it is the one with number `point`, and else passes over it
-- when it is written already.
def Writing.pass (ascii point : Nat) (w : Writing) (c : Char) : Writing :=
  if c.toNat < point then { w with distance := w.distance + 1 }
  else if c.toNat = point then
    { distance := 0
      bias := adapted w.distance (w.count + 1) (w.count = ascii)
      count := w.count + 1
      digits := w.digits ++ distanceDigits w.bias 36 w.distance }
  else w

def Writing.passAll (ascii : Nat) (label : List Char) (w : Writing) (next : Nat) : List Nat -> Writing
  | [] => w
  | point :: more =>
    let w := { w with distance := w.distance + (point - next) * (w.count + 1) }
    let w := label.foldl (Writing.pass ascii point) w
    Writing.passAll ascii label { w with distance := w.distance + 1 } (point + 1) more

def encode (label : List Char) : List Char :=
  let ascii := label.filter (·.toNat < 0x80)
  let points := ((label.map Char.toNat).filter (0x80 <= ·)).mergeSort.eraseDups
  let start := { distance := 0, bias := 72, count := ascii.length, digits := [] }
  let written := Writing.passAll ascii.length label start 0x80 points
  ascii ++ (if ascii = [] then [] else ['-']) ++ written.digits

structure Reading where
  label : List Char
  point : Nat
  position : Nat
  distance : Nat
  weight : Nat
  place : Nat
  bias : Nat

def Reading.step? (r : Reading) (c : Char) : Option Reading := do
  let n ← digitValue? c
  let distance := r.distance + n * r.weight
  let t := threshold r.bias r.place
  if t <= n then
    some { r with distance, weight := r.weight * (36 - t), place := r.place + 36 }
  else
    let count := r.label.length + 1
    let point := r.point + (r.position + distance) / count
    let position := (r.position + distance) % count
    if point.isValidChar then
      some { label := r.label.take position ++ Char.ofNat point :: r.label.drop position
             point, position := position + 1, distance := 0, weight := 1, place := 36
             bias := adapted distance count (r.position = 0) }
    else none

def decode? (text : List Char) : Option (List Char) := do
  let last := (text.reverse.takeWhile (· ≠ '-')).reverse
  let ascii := (text.take (text.length - last.length)).dropLast
  let digits := if ascii = [] then text else last
  let start : Reading :=
    { label := ascii, point := 0x80, position := 0, distance := 0, weight := 1, place := 36, bias := 72 }
  let r ← digits.foldlM Reading.step? start
  if r.place = 36 then some r.label else none

end Punycode

end StylesheetImports
