import Mathlib.Data.List.Basic
import StylesheetImports.Text.Offset

set_option autoImplicit false

namespace StylesheetImports

namespace Utf8

theorem head_one {n : Nat} (h : n <= 0x7F) (rest : Bytes) :
    head (UInt8.ofNat n) rest = (some (Char.ofNat n), 0) := by
  have lead : (UInt8.ofNat n).toNat = n := by simp; omega
  simp only [head, lead]
  rw [if_pos (by omega)]

theorem head_two {n : Nat} (above : 0x7F < n) (below : n <= 0x7FF) (rest : Bytes) :
    head (UInt8.ofNat (n / 64 % 32 + 0xC0)) (UInt8.ofNat (n % 64 + 0x80) :: rest)
      = (some (Char.ofNat n), 1) := by
  have lead : (UInt8.ofNat (n / 64 % 32 + 0xC0)).toNat = n / 64 + 0xC0 := by simp; omega
  have tail : (UInt8.ofNat (n % 64 + 0x80)).toNat = n % 64 + 0x80 := by simp; omega
  have value : (n / 64 + 0xC0 - 0xC0) * 64 + (n % 64 + 0x80 - 0x80) = n := by omega
  simp only [head, isTail, lead, tail, value]
  rw [if_neg (by omega), if_pos (by simp; omega), if_pos (by simp; omega)]

theorem head_three {n : Nat} (above : 0x7FF < n) (below : n <= 0xFFFF)
    (scalar : n < 0xD800 ∨ 0xDFFF < n) (rest : Bytes) :
    head (UInt8.ofNat (n / 4096 % 16 + 0xE0))
        (UInt8.ofNat (n / 64 % 64 + 0x80) :: UInt8.ofNat (n % 64 + 0x80) :: rest)
      = (some (Char.ofNat n), 2) := by
  have lead : (UInt8.ofNat (n / 4096 % 16 + 0xE0)).toNat = n / 4096 + 0xE0 := by simp; omega
  have second : (UInt8.ofNat (n / 64 % 64 + 0x80)).toNat = n / 64 % 64 + 0x80 := by simp; omega
  have third : (UInt8.ofNat (n % 64 + 0x80)).toNat = n % 64 + 0x80 := by simp; omega
  have value : (n / 4096 + 0xE0 - 0xE0) * 4096 + (n / 64 % 64 + 0x80 - 0x80) * 64
      + (n % 64 + 0x80 - 0x80) = n := by omega
  have bounded : isSecond (n / 4096 + 0xE0) (UInt8.ofNat (n / 64 % 64 + 0x80)) = true := by
    simp only [isSecond, secondBounds, second]
    -- Only the leads 0xE0 and 0xED narrow the second byte.
    split_ifs <;> simp <;> omega
  simp only [head, isTail, lead, third]
  rw [if_neg (by omega), if_neg (by simp), if_pos (by simp; omega), if_pos bounded,
    if_pos (by simp; omega), second, value]

theorem head_four {n : Nat} (above : 0xFFFF < n) (below : n < 0x110000) (rest : Bytes) :
    head (UInt8.ofNat (n / 262144 % 8 + 0xF0))
        (UInt8.ofNat (n / 4096 % 64 + 0x80) :: UInt8.ofNat (n / 64 % 64 + 0x80)
          :: UInt8.ofNat (n % 64 + 0x80) :: rest)
      = (some (Char.ofNat n), 3) := by
  have lead : (UInt8.ofNat (n / 262144 % 8 + 0xF0)).toNat = n / 262144 + 0xF0 := by simp; omega
  have second : (UInt8.ofNat (n / 4096 % 64 + 0x80)).toNat = n / 4096 % 64 + 0x80 := by simp; omega
  have third : (UInt8.ofNat (n / 64 % 64 + 0x80)).toNat = n / 64 % 64 + 0x80 := by simp; omega
  have fourth : (UInt8.ofNat (n % 64 + 0x80)).toNat = n % 64 + 0x80 := by simp; omega
  have value : (n / 262144 + 0xF0 - 0xF0) * 262144 + (n / 4096 % 64 + 0x80 - 0x80) * 4096
      + (n / 64 % 64 + 0x80 - 0x80) * 64 + (n % 64 + 0x80 - 0x80) = n := by omega
  have bounded : isSecond (n / 262144 + 0xF0) (UInt8.ofNat (n / 4096 % 64 + 0x80)) = true := by
    simp only [isSecond, secondBounds, second]
    split_ifs <;> simp <;> omega
  simp only [head, isTail, lead, third, fourth]
  rw [if_neg (by omega), if_neg (by simp), if_neg (by simp), if_pos (by simp; omega),
    if_pos bounded, if_pos (by simp; omega), if_pos (by simp; omega), second, value]

theorem head_utf8EncodeChar (c : Char) :
    ∃ lead tail, String.utf8EncodeChar c = lead :: tail ∧
      ∀ rest, head lead (tail ++ rest) = (some c, tail.length) := by
  have scalar : c.val.toNat < 0xD800 ∨ 0xDFFF < c.val.toNat ∧ c.val.toNat < 0x110000 := c.valid
  have same : Char.ofNat c.val.toNat = c := Char.ofNat_toNat c
  unfold String.utf8EncodeChar
  simp only
  split
  next one =>
    refine ⟨_, _, rfl, fun rest => ?_⟩
    rw [List.nil_append, head_one one, same, List.length_nil]
  next one =>
    split
    next two =>
      refine ⟨_, _, rfl, fun rest => ?_⟩
      rw [List.cons_append, List.nil_append, head_two (by omega) two, same]
      rfl
    next two =>
      split
      next three =>
        refine ⟨_, _, rfl, fun rest => ?_⟩
        rw [List.cons_append, List.cons_append, List.nil_append,
          head_three (by omega) three (by omega), same]
        rfl
      next three =>
        refine ⟨_, _, rfl, fun rest => ?_⟩
        rw [List.cons_append, List.cons_append, List.cons_append, List.nil_append,
          head_four (by omega) (by omega), same]
        rfl

theorem toNat_ofNat_of_scalar {n : Nat} (h : n < 0xD800 ∨ 0xDFFF < n ∧ n < 0x110000) :
    (Char.ofNat n).val.toNat = n := by
  rw [Char.ofNat, dif_pos h]
  rfl

theorem ofNat_eq {b : UInt8} {n : Nat} (h : n = b.toNat) : UInt8.ofNat n = b := by
  rw [h, UInt8.ofNat_toNat]

theorem bounds_of_isSecond {lead : Nat} {b : UInt8} (h : isSecond lead b = true) :
    0x80 <= b.toNat ∧ b.toNat <= 0xBF ∧ (lead = 0xE0 -> 0xA0 <= b.toNat) ∧ (lead = 0xED -> b.toNat <= 0x9F) ∧
      (lead = 0xF0 -> 0x90 <= b.toNat) ∧ (lead = 0xF4 -> b.toNat <= 0x8F) := by
  simp only [isSecond, secondBounds, Bool.and_eq_true] at h
  split_ifs at h <;> simp only [decide_eq_true_eq] at h <;> omega

theorem utf8EncodeChar_of_head {lead : UInt8} {rest : Bytes} {c : Char} {n : Nat}
    (h : head lead rest = (some c, n)) : String.utf8EncodeChar c ++ rest.drop n = lead :: rest := by
  have leadBound := lead.toNat_lt
  unfold head at h
  simp only [isTail, Bool.and_eq_true, decide_eq_true_eq] at h
  -- The cases are those of the reader: one lead byte after the other, and then whether bytes are missing.
  split_ifs at h with one two three four
  · simp only [Prod.mk.injEq, Option.some.injEq] at h
    obtain ⟨rfl, rfl⟩ := h
    have value := toNat_ofNat_of_scalar (n := lead.toNat) (by omega)
    simp only [String.utf8EncodeChar, value]
    rw [if_pos (by omega), ofNat_eq rfl]
    rfl
  · split at h
    next second more =>
      split_ifs at h with tail
      · simp only [Prod.mk.injEq, Option.some.injEq] at h
        obtain ⟨rfl, rfl⟩ := h
        have value := toNat_ofNat_of_scalar (n := (lead.toNat - 0xC0) * 64 + (second.toNat - 0x80)) (by omega)
        simp only [String.utf8EncodeChar, value]
        rw [if_neg (by omega), if_pos (by omega), ofNat_eq (b := lead) (by omega),
          ofNat_eq (b := second) (by omega)]
        rfl
      · simp at h
    next => simp at h
  · split at h
    next second third more =>
      split_ifs at h with follows tail
      · simp only [Prod.mk.injEq, Option.some.injEq] at h
        obtain ⟨rfl, rfl⟩ := h
        have bounds := bounds_of_isSecond follows
        have value := toNat_ofNat_of_scalar
          (n := (lead.toNat - 0xE0) * 4096 + (second.toNat - 0x80) * 64 + (third.toNat - 0x80)) (by omega)
        simp only [String.utf8EncodeChar, value]
        rw [if_neg (by omega), if_neg (by omega), if_pos (by omega), ofNat_eq (b := lead) (by omega),
          ofNat_eq (b := second) (by omega), ofNat_eq (b := third) (by omega)]
        rfl
      · simp at h
      · simp at h
    next => simp at h
    next => simp at h
  · split at h
    next second third fourth more =>
      split_ifs at h with follows tail tail'
      · simp only [Prod.mk.injEq, Option.some.injEq] at h
        obtain ⟨rfl, rfl⟩ := h
        have bounds := bounds_of_isSecond follows
        have value := toNat_ofNat_of_scalar
          (n := (lead.toNat - 0xF0) * 262144 + (second.toNat - 0x80) * 4096 + (third.toNat - 0x80) * 64
            + (fourth.toNat - 0x80)) (by omega)
        simp only [String.utf8EncodeChar, value]
        rw [if_neg (by omega), if_neg (by omega), if_neg (by omega), ofNat_eq (b := lead) (by omega),
          ofNat_eq (b := second) (by omega), ofNat_eq (b := third) (by omega), ofNat_eq (b := fourth) (by omega)]
        rfl
      all_goals simp at h
    next => simp at h
    next => simp at h
    next => simp at h
  · simp at h

theorem chars_encode_append (text : List Char) (rest : Bytes) :
    chars (encode text ++ rest) = text.map some ++ chars rest := by
  induction text with
  | nil => rfl
  | cons c text ih =>
    obtain ⟨lead, tail, bytes, reads⟩ := head_utf8EncodeChar c
    rw [encode_cons, bytes, List.cons_append, List.cons_append, List.append_assoc, chars, reads]
    simp [ih]

@[simp] theorem chars_encode (text : List Char) : chars (encode text) = text.map some := by
  simpa [chars] using chars_encode_append text []

@[simp] theorem decodeLossy_encode (text : List Char) : decodeLossy (encode text) = text := by
  simp [decodeLossy, Function.comp_def]

theorem encode_injective {a b : List Char} (h : encode a = encode b) : a = b := by
  rw [← decodeLossy_encode a, h, decodeLossy_encode]

theorem encode_of_decode? {bytes : Bytes} {text : List Char} (h : decode? bytes = some text) :
    encode text = bytes := by
  induction bytes using chars.induct generalizing text with
  | case1 =>
    simp only [decode?, chars, List.mapM_nil, Option.pure_def, Option.some.injEq] at h
    rw [← h, encode_nil]
  | case2 lead rest ih =>
    rw [decode?, chars] at h
    simp only [List.mapM_cons, id_eq, Option.bind_eq_bind, Option.bind_eq_some_iff] at h
    obtain ⟨c, read, later, more, same⟩ := h
    rw [Option.pure_def, Option.some.injEq] at same
    rw [← same, encode_cons, ih more]
    exact utf8EncodeChar_of_head (Prod.ext read rfl)
theorem decode?_encode (text : List Char) : decode? (encode text) = some text := by
  rw [decode?, chars_encode, List.mapM_map]
  simpa using List.mapM_pure (m := Option) (f := id) (l := text)

@[simp] theorem length_encode (text : List Char) : (encode text).length = size text := by
  induction text with
  | nil => rfl
  | cons c text ih => simp [ih]

theorem getElem?_encode_left {a b : List Char} {n : Nat} (h : n < size a) :
    (encode (a ++ b))[n]? = (encode a)[n]? := by
  rw [encode_append, List.getElem?_append_left (by rwa [length_encode])]

theorem getElem?_encode_right {a b : List Char} {n : Nat} (h : size a <= n) :
    (encode (a ++ b))[n]? = (encode b)[n - size a]? := by
  rw [encode_append, List.getElem?_append_right (by rwa [length_encode]), length_encode]

end Utf8

end StylesheetImports
