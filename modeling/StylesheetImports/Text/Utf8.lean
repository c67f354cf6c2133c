/-!
Text as bytes. `encode` writes characters in UTF-8; `chars` reads bytes back one character at a time and
keeps a place for every maximal run that is no character, so that strict and lossy reading are two views
of one decoding.
-/

set_option autoImplicit false

namespace StylesheetImports

abbrev Bytes := List UInt8

namespace Utf8

def encode (text : List Char) : Bytes :=
  text.flatMap String.utf8EncodeChar

@[simp] theorem encode_nil : encode [] = [] := rfl

@[simp] theorem encode_cons (c : Char) (text : List Char) :
    encode (c :: text) = String.utf8EncodeChar c ++ encode text := rfl

@[simp] theorem encode_append (a b : List Char) : encode (a ++ b) = encode a ++ encode b := by
  simp [encode]

def isTail (b : UInt8) : Bool :=
  0x80 <= b.toNat && b.toNat <= 0xBF

-- Least and greatest second byte after the first byte of a sequence of three or four bytes.
def secondBounds (lead : Nat) : Nat × Nat :=
  if lead = 0xE0 then (0xA0, 0xBF)
  else if lead = 0xED then (0x80, 0x9F)
  else if lead = 0xF0 then (0x90, 0xBF)
  else if lead = 0xF4 then (0x80, 0x8F)
  else (0x80, 0xBF)

def isSecond (lead : Nat) (b : UInt8) : Bool :=
  (secondBounds lead).1 <= b.toNat && b.toNat <= (secondBounds lead).2

/-- What stands at the head of `lead :: rest`: a character, or `none` for bytes that are none, and how
many bytes of `rest` it takes. A broken sequence ends before the first byte that cannot continue it. -/
def head (lead : UInt8) (rest : Bytes) : Option Char × Nat :=
  let n := lead.toNat
  if n < 0x80 then (some (Char.ofNat n), 0)
  else if 0xC2 <= n && n <= 0xDF then
    match rest with
    | b :: _ => if isTail b then (some (Char.ofNat ((n - 0xC0) * 64 + (b.toNat - 0x80))), 1) else (none, 0)
    | [] => (none, 0)
  else if 0xE0 <= n && n <= 0xEF then
    match rest with
    | b :: c :: _ =>
      if isSecond n b then
        if isTail c then
          (some (Char.ofNat ((n - 0xE0) * 4096 + (b.toNat - 0x80) * 64 + (c.toNat - 0x80))), 2)
        else (none, 1)
      else (none, 0)
    | [b] => (none, if isSecond n b then 1 else 0)
    | [] => (none, 0)
  else if 0xF0 <= n && n <= 0xF4 then
    match rest with
    | b :: c :: d :: _ =>
      if isSecond n b then
        if isTail c then
          if isTail d then
            (some (Char.ofNat ((n - 0xF0) * 262144 + (b.toNat - 0x80) * 4096 + (c.toNat - 0x80) * 64
              + (d.toNat - 0x80))), 3)
          else (none, 2)
        else (none, 1)
      else (none, 0)
    | [b, c] => (none, if isSecond n b then (if isTail c then 2 else 1) else 0)
    | [b] => (none, if isSecond n b then 1 else 0)
    | [] => (none, 0)
  else (none, 0)

def chars : Bytes -> List (Option Char)
  | [] => []
  | lead :: rest => (head lead rest).1 :: chars (rest.drop (head lead rest).2)
termination_by bytes => bytes.length
decreasing_by
  simp only [List.length_drop, List.length_cons]
  omega

def decode? (bytes : Bytes) : Option (List Char) :=
  (chars bytes).mapM id

/-- The text written in `bytes`, with the replacement character for every broken sequence. -/
def decodeLossy (bytes : Bytes) : List Char :=
  (chars bytes).map (fun c => c.getD '\uFFFD')

end Utf8

end StylesheetImports
