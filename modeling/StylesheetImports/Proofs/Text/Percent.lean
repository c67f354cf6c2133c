import Mathlib.Tactic.SplitIfs
import StylesheetImports.Text.Percent

set_option autoImplicit false

namespace StylesheetImports

theorem forall_byte {test : UInt8 -> Bool} (table : (List.range 256).all (fun n => test (UInt8.ofNat n)) = true)
    (b : UInt8) : test b = true := by
  have row := List.all_eq_true.mp table b.toNat (List.mem_range.mpr b.toNat_lt)
  rwa [UInt8.ofNat_toNat] at row

theorem forall_ascii {test : Char -> Bool} (table : (List.range 0x80).all (fun n => test (Char.ofNat n)) = true)
    (c : Char) (low : c.toNat < 0x80) : test c = true := by
  have row := List.all_eq_true.mp table c.toNat (List.mem_range.mpr low)
  rwa [Char.ofNat_toNat] at row

namespace Percent

theorem digitValue?_digit {n : Nat} (h : n < 16) :
    ∃ d, Utf8.encode [digit n] = [d] ∧ digitValue? d = some n := by
  have table : ∀ n < 16, Utf8.encode [digit n] = [UInt8.ofNat (digit n).toNat] ∧
      digitValue? (UInt8.ofNat (digit n).toNat) = some n := by
    decide
  exact ⟨_, table n h⟩

theorem decode_cons {b : UInt8} (h : b ≠ 37) (rest : Bytes) : decode (b :: rest) = b :: decode rest := by
  rw [decode.eq_2 _ _ fun high low more same _ => h same]

theorem decode_triple (b : UInt8) (rest : Bytes) :
    decode (Utf8.encode (triple b) ++ rest) = b :: decode rest := by
  have below : b.toNat < 256 := b.toNat_lt
  obtain ⟨high, highText, highValue⟩ := digitValue?_digit (n := b.toNat / 16) (by omega)
  obtain ⟨low, lowText, lowValue⟩ := digitValue?_digit (n := b.toNat % 16) (by omega)
  have written : Utf8.encode (triple b) = [37, high, low] := by
    have parts : triple b = ['%'] ++ ([digit (b.toNat / 16)] ++ [digit (b.toNat % 16)]) := rfl
    rw [parts, Utf8.encode_append, Utf8.encode_append, highText, lowText]
    rfl
  have value : UInt8.ofNat (b.toNat / 16 * 16 + b.toNat % 16) = b := by
    rw [Nat.div_add_mod', UInt8.ofNat_toNat]
  rw [written, List.cons_append, List.cons_append, List.cons_append, List.nil_append, decode, highValue,
    lowValue]
  simp only [value]

theorem encode_ascii {b : UInt8} (h : b.toNat < 0x80) : Utf8.encode [Char.ofNat b.toNat] = [b] := by
  have table : ∀ n < 0x80, Utf8.encode [Char.ofNat n] = [UInt8.ofNat n] := by decide
  rw [table b.toNat h, UInt8.ofNat_toNat]

theorem decode_encodeByte {escaped : UInt8 -> Bool} (percent : escaped 37 = true) (b : UInt8) (rest : Bytes) :
    decode (Utf8.encode (encodeByte escaped b) ++ rest) = b :: decode rest := by
  unfold encodeByte
  split_ifs with special
  · exact decode_triple b rest
  · rw [Bool.or_eq_true, decide_eq_true_eq, not_or, Nat.not_le] at special
    have plain : b ≠ 37 := by
      rintro rfl
      exact special.2 percent
    rw [encode_ascii special.1, List.singleton_append, decode_cons plain]

theorem decode_encode {escaped : UInt8 -> Bool} (percent : escaped 37 = true) (bytes : Bytes) :
    decode (Utf8.encode (encode escaped bytes)) = bytes := by
  induction bytes with
  | nil => rfl
  | cons b bytes ih =>
    have parts : encode escaped (b :: bytes) = encodeByte escaped b ++ encode escaped bytes := rfl
    rw [parts, Utf8.encode_append, decode_encodeByte percent, ih]

def startsWithDigits : Bytes -> Bool
  | high :: low :: _ => (digitValue? high).isSome && (digitValue? low).isSome
  | _ => false

theorem decode_of_digits {high low : UInt8} {h l : Nat} (first : digitValue? high = some h)
    (second : digitValue? low = some l) (rest : Bytes) :
    decode (37 :: high :: low :: rest) = UInt8.ofNat (h * 16 + l) :: decode rest := by
  rw [decode, first, second]

theorem decode_of_plain {b : UInt8} {rest : Bytes} (plain : b = 37 -> startsWithDigits rest = false) :
    decode (b :: rest) = b :: decode rest := by
  by_cases percent : b = 37
  · subst percent
    have stays := plain rfl
    match rest with
    | [] => rfl
    | [_] => rfl
    | high :: low :: more =>
      rw [decode]
      cases first : digitValue? high with
      | none => rfl
      | some h =>
        cases second : digitValue? low with
        | none => rfl
        | some l => simp [startsWithDigits, first, second] at stays
  · exact decode_cons percent rest

-- Bytes are read from the front: a percent sign with its digits, or one byte that stays.
@[elab_as_elim]
theorem decode_induction {motive : Bytes -> Prop} (nil : motive [])
    (digits : ∀ high low rest h l, digitValue? high = some h -> digitValue? low = some l -> motive rest ->
      motive (37 :: high :: low :: rest))
    (plain : ∀ b rest, (b = 37 -> startsWithDigits rest = false) -> motive rest -> motive (b :: rest))
    (bytes : Bytes) : motive bytes := by
  induction bytes using decode.induct with
  | case1 high low rest h l second first ih => exact digits high low rest h l first second ih
  | case2 high low rest none ih =>
    refine plain 37 _ (fun _ => ?_) ih
    rw [startsWithDigits, Bool.and_eq_false_iff, Option.isSome_eq_false_iff, Option.isSome_eq_false_iff,
      Option.isNone_iff_eq_none, Option.isNone_iff_eq_none]
    cases first : digitValue? high with
    | none => exact .inl rfl
    | some h =>
      refine .inr (Option.eq_none_iff_forall_ne_some.mpr fun l second => none h l first second)
  | case3 b rest short ih =>
    refine plain b rest (fun percent => ?_) ih
    match rest with
    | [] => rfl
    | [_] => rfl
    | high :: low :: more => exact absurd rfl (fun same => short high low more percent same)
  | case4 => exact nil

theorem length_decode_le (bytes : Bytes) : (decode bytes).length <= bytes.length := by
  induction bytes using decode_induction with
  | nil => exact Nat.le_refl 0
  | digits high low rest h l first second ih =>
    rw [decode_of_digits first second]
    simp only [List.length_cons]
    omega
  | plain b rest plain ih =>
    rw [decode_of_plain plain, List.length_cons, List.length_cons]
    exact Nat.succ_le_succ ih

theorem startsWithDigits_append {b : UInt8} (noDigit : digitValue? b = none) (first rest : Bytes) :
    startsWithDigits (first ++ b :: rest) = startsWithDigits first := by
  match first with
  | [] => cases rest <;> simp [startsWithDigits, noDigit]
  | [x] => simp [startsWithDigits, noDigit]
  | x :: y :: more => rfl

theorem decode_append_cons {b : UInt8} (plain : b ≠ 37) (noDigit : digitValue? b = none) (first rest : Bytes) :
    decode (first ++ b :: rest) = decode first ++ b :: decode rest := by
  induction first using decode_induction with
  | nil => exact decode_cons plain rest
  | digits high low more h l isHigh isLow ih =>
    simp only [List.cons_append, decode_of_digits isHigh isLow, ih]
  | plain c more stays ih =>
    rw [List.cons_append, decode_of_plain, decode_of_plain stays, ih]
    · rfl
    · rw [startsWithDigits_append noDigit]
      exact stays

theorem decode_eq_self {b : UInt8} (plain : b ≠ 37) (noDigit : digitValue? b = none) {first rest : Bytes}
    (whole : decode (first ++ b :: rest) = first ++ b :: rest) : decode first = first ∧ decode rest = rest := by
  rw [decode_append_cons plain noDigit] at whole
  have lengths := congrArg List.length whole
  simp only [List.length_append, List.length_cons] at lengths
  have short := length_decode_le first
  have short' := length_decode_le rest
  obtain ⟨before, behind⟩ := List.append_inj whole (by omega)
  exact ⟨before, (List.cons.inj behind).2⟩

theorem lt_of_digit {b : UInt8} (digit : (digitValue? b).isSome = true) : b.toNat < 0x80 := by
  refine Nat.lt_of_not_le fun high => ?_
  have none : digitValue? b = none := by
    simp only [digitValue?, Bool.and_eq_true, decide_eq_true_eq]
    rw [if_neg (by omega), if_neg (by omega), if_neg (by omega)]
  simp [none] at digit

theorem encode_cons (escaped : UInt8 -> Bool) (b : UInt8) (bytes : Bytes) :
    encode escaped (b :: bytes) = encodeByte escaped b ++ encode escaped bytes := rfl

section

variable {escaped : UInt8 -> Bool} (percent : escaped 37 = false)
  (digits : ∀ b, (digitValue? b).isSome = true -> escaped b = false)

include digits

theorem encodeByte_cases (b : UInt8) :
    (∃ rest, Utf8.encode (encodeByte escaped b) = 37 :: rest ∧ digitValue? b = none) ∨
      Utf8.encode (encodeByte escaped b) = [b] := by
  unfold encodeByte
  split
  next special =>
    have written : ∃ rest, Utf8.encode (triple b) = 37 :: rest := ⟨_, rfl⟩
    obtain ⟨rest, written⟩ := written
    refine .inl ⟨rest, written, Option.not_isSome_iff_eq_none.mp fun digit => ?_⟩
    simp [digits b digit, Nat.not_le.mpr (lt_of_digit digit)] at special
  next plain =>
    rw [Bool.or_eq_true, decide_eq_true_eq, not_or, Nat.not_le] at plain
    exact .inr (encode_ascii plain.1)

theorem startsWithDigits_encode (bytes : Bytes) :
    startsWithDigits (Utf8.encode (encode escaped bytes)) = startsWithDigits bytes := by
  have percent : digitValue? 37 = none := rfl
  match bytes with
  | [] => rfl
  | [b] =>
    rcases encodeByte_cases digits b with ⟨rest, written, _⟩ | written
    · rw [encode_cons, Utf8.encode_append, written]
      cases rest <;> simp [startsWithDigits, percent, encode]
    · rw [encode_cons, Utf8.encode_append, written]
      rfl
  | b :: c :: more =>
    rw [encode_cons, encode_cons, Utf8.encode_append, Utf8.encode_append]
    rcases encodeByte_cases digits b with ⟨rest, written, noDigit⟩ | written
    · rw [written, startsWithDigits, noDigit, List.cons_append]
      cases rest ++ _ <;> simp [startsWithDigits, percent]
    · rcases encodeByte_cases digits c with ⟨rest, written', noDigit⟩ | written'
      · rw [written, written', startsWithDigits, noDigit]
        simp [startsWithDigits, percent]
      · rw [written, written']
        rfl

include percent in
theorem decode_encode_of_percent (bytes : Bytes) : decode (Utf8.encode (encode escaped bytes)) = decode bytes := by
  induction bytes using decode_induction with
  | nil => rfl
  | digits high low rest h l first second ih =>
    have ascii {b : UInt8} {n : Nat} (digit : digitValue? b = some n) : Utf8.encode (encodeByte escaped b) = [b] := by
      have isDigit : (digitValue? b).isSome = true := by simp [digit]
      rw [encodeByte, if_neg (by simp [digits b isDigit, lt_of_digit isDigit]), encode_ascii (lt_of_digit isDigit)]
    have sign : Utf8.encode (encodeByte escaped 37) = [37] := by
      rw [encodeByte, if_neg (by simp [percent])]
      rfl
    rw [encode_cons, encode_cons, encode_cons, Utf8.encode_append, Utf8.encode_append, Utf8.encode_append, sign,
      ascii first, ascii second, decode_of_digits first second, ← ih, ← decode_of_digits first second]
    rfl
  | plain b rest stays ih =>
    rw [encode_cons, Utf8.encode_append, decode_of_plain stays, ← ih]
    unfold encodeByte
    split
    · exact decode_triple b _
    next low =>
      rw [Bool.or_eq_true, decide_eq_true_eq, not_or, Nat.not_le] at low
      rw [encode_ascii low.1, List.singleton_append, decode_of_plain]
      rw [startsWithDigits_encode digits]
      exact stays

end

end Percent

end StylesheetImports
