import Mathlib.Tactic.SplitIfs
import StylesheetImports.Proofs.Text.Utf8

set_option autoImplicit false

namespace StylesheetImports

namespace Utf8

theorem utf8EncodeChar_lt {c d : Char} (less : c < d) (x y : Bytes) :
    String.utf8EncodeChar c ++ x < String.utf8EncodeChar d ++ y := by
  have values : c.val.toNat < d.val.toNat := less
  have bound : d.val.toNat < 0x110000 := by
    have valid := d.valid
    simp only [UInt32.isValidChar, Nat.isValidChar] at valid
    omega
  unfold String.utf8EncodeChar
  generalize c.val.toNat = n at values
  generalize d.val.toNat = m at values bound
  simp only
  split_ifs <;>
    simp (disch := omega) only [List.cons_append, List.nil_append, List.cons_lt_cons_iff, UInt8.lt_iff_toNat_lt,
      ← UInt8.toNat_inj, UInt8.toNat_ofNat', Nat.mod_eq_of_lt, Nat.reducePow] <;>
    omega

theorem encode_lt {a b : List Char} (less : a < b) : encode a < encode b := by
  induction a generalizing b with
  | nil =>
    cases b with
    | nil => exact absurd less (List.not_lt_nil [])
    | cons d b =>
      obtain ⟨lead, more, same⟩ := List.exists_cons_of_ne_nil (String.utf8EncodeChar_ne_nil (c := d))
      rw [encode_nil, encode_cons, same]
      exact List.nil_lt_cons _ _
  | cons c a ih =>
    cases b with
    | nil => exact absurd less (List.not_lt_nil _)
    | cons d b =>
      rw [encode_cons, encode_cons]
      rcases List.cons_lt_cons_iff.mp less with lower | ⟨rfl, later⟩
      · exact utf8EncodeChar_lt lower _ _
      · exact List.append_left_lt (ih later)

theorem encode_lt_iff {a b : List Char} : encode a < encode b ↔ a < b := by
  refine ⟨fun less => ?_, encode_lt⟩
  rcases Std.lt_trichotomy a b with before | rfl | behind
  · exact before
  · exact absurd less (List.lt_irrefl _)
  · exact absurd less (List.lt_asymm (encode_lt behind))

end Utf8

end StylesheetImports
