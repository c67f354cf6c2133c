import StylesheetImports.Proofs.Text.Percent
import StylesheetImports.Proofs.Text.Pieces
import StylesheetImports.Proofs.Text.Utf8
import StylesheetImports.Text.Form

set_option autoImplicit false

namespace StylesheetImports

namespace Form

-- Whether a character can stand in an encoded name or value.
def isEncoded (c : Char) : Bool :=
  c.isAlphanum || c = '*' || c = '-' || c = '.' || c = '_' || c = '+' || c = '%'

theorem isEncoded_of_mem_encodeByte (b : UInt8) : ∀ c ∈ encodeByte b, isEncoded c = true := by
  have bytes : ∀ b, (encodeByte b).all isEncoded = true := forall_byte (by decide +kernel)
  exact List.all_eq_true.mp (bytes b)

theorem isEncoded_of_mem_encode {text : List Char} {c : Char} (h : c ∈ encode text) : isEncoded c = true := by
  obtain ⟨b, _, mem⟩ := List.mem_flatMap.mp h
  exact isEncoded_of_mem_encodeByte b c mem

theorem length_le_encode (text : List Char) : text.length <= (encode text).length := by
  have byte (b : UInt8) : 1 <= (encodeByte b).length := by
    unfold encodeByte
    split_ifs <;> simp [Percent.triple]
  have bytes (b : Bytes) : b.length <= (b.flatMap encodeByte).length := by
    induction b with
    | nil => exact Nat.le_refl 0
    | cons c b ih =>
      have first := byte c
      rw [List.flatMap_cons, List.length_append, List.length_cons]
      omega
  have chars : text.length <= (Utf8.encode text).length := by
    induction text with
    | nil => exact Nat.le_refl 0
    | cons c text ih =>
      have first := c.utf8Size_pos
      rw [Utf8.length_encode] at ih ⊢
      rw [Utf8.size_cons, List.length_cons]
      omega
  exact Nat.le_trans chars (bytes _)

theorem printed_of_isEncoded {c : Char} (h : isEncoded c = true) : 0x20 < c.toNat := by
  by_contra low
  have chars : ∀ c, c.toNat < 0x80 -> (0x20 < c.toNat || !isEncoded c) = true := forall_ascii (by decide +kernel)
  have none := chars c (by omega)
  simp [h, low] at none

theorem plain_byte {b : UInt8} (h : isPlain b = true) :
    b.toNat < 0x80 ∧ b ≠ 37 ∧ Char.ofNat b.toNat ≠ '+' := by
  have bytes : ∀ b, (!isPlain b || b.toNat < 0x80 && b ≠ 37 && Char.ofNat b.toNat ≠ '+') = true :=
    forall_byte (by decide +kernel)
  simpa [h, and_assoc] using bytes b

theorem plus_not_mem_triple (b : UInt8) : '+' ∉ Percent.triple b := by
  have table : ∀ n < 16, Percent.digit n ≠ '+' := by decide
  have below : b.toNat < 256 := b.toNat_lt
  have high := table (b.toNat / 16) (by omega)
  have low := table (b.toNat % 16) (by omega)
  simp [Percent.triple, high.symm, low.symm]

theorem decode_encodeByte (b : UInt8) (rest : Bytes) :
    Percent.decode (Utf8.encode ((encodeByte b).map fun c => if c = '+' then ' ' else c) ++ rest) =
      b :: Percent.decode rest := by
  unfold encodeByte
  split_ifs with plain blank
  · obtain ⟨ascii, percent, plus⟩ := plain_byte plain
    rw [List.map_singleton, if_neg plus, Percent.encode_ascii ascii, List.singleton_append,
      Percent.decode_cons percent]
  · rw [blank]
    exact Percent.decode_cons (by decide) rest
  · -- The digits of a triple are no plus signs, so none of them becomes a blank.
    have kept : (Percent.triple b).map (fun c => if c = '+' then ' ' else c) = Percent.triple b := by
      rw [List.map_congr_left (g := id), List.map_id]
      intro c mem
      have other : c ≠ '+' := fun same => plus_not_mem_triple b (same ▸ mem)
      rw [if_neg other, id]
    rw [kept, Percent.decode_triple]

theorem decode_encode (text : List Char) : decode (encode text) = text := by
  have bytes (b : Bytes) : Percent.decode
      (Utf8.encode ((b.flatMap encodeByte).map fun c => if c = '+' then ' ' else c)) = b := by
    induction b with
    | nil => rfl
    | cons b rest ih =>
      rw [List.flatMap_cons, List.map_append, Utf8.encode_append, decode_encodeByte, ih]
  rw [decode, encode, bytes, Utf8.decodeLossy_encode]

theorem pairs_append {first : List Char} (rest : List Char) :
    pairs (first ++ '&' :: rest) = pairs first ++ pairs rest := by
  rw [pairs, pieces_append_cons (by simp), List.filterMap_append]
  rfl

theorem pairs_value {name : List Char} (plain : ∀ c ∈ name, c ≠ '&' ∧ c ≠ '=') (value : List Char) :
    pairs (name ++ '=' :: encode value) = [(decode name, value)] := by
  have whole : ∀ c ∈ name ++ '=' :: encode value, decide (c = '&') = false := by
    intro c mem
    rw [decide_eq_false_iff_not]
    rintro rfl
    rcases List.mem_append.mp mem with mem | mem
    · exact (plain '&' mem).1 rfl
    · rcases List.mem_cons.mp mem with same | mem
      · exact absurd same (by decide)
      · exact absurd (isEncoded_of_mem_encode mem) (by decide)
  have before : ∀ c ∈ name, decide (c ≠ '=') = true := fun c mem => by simpa using (plain c mem).2
  rw [pairs, pieces_of_not whole, List.filterMap_cons, if_neg (by simp)]
  simp only [List.takeWhile_append_of_pos before, List.dropWhile_append_of_pos before]
  simp [decode_encode]

end Form

end StylesheetImports
