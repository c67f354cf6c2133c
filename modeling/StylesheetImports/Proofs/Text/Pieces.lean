import StylesheetImports.Proofs.Text.Utf8
import StylesheetImports.Text.Pieces

set_option autoImplicit false

namespace StylesheetImports

variable {A : Type}

theorem pieces_congr {separates other : A -> Bool} {l : List A} (same : ∀ x ∈ l, separates x = other x) :
    pieces separates l = pieces other l := by
  induction l with
  | nil => rfl
  | cons x l ih =>
    rw [pieces, pieces, same x List.mem_cons_self, ih fun y mem => same y (List.mem_cons_of_mem x mem)]

theorem pieces_append_of_not {separates : A -> Bool} {a : List A} (none : ∀ x ∈ a, separates x = false)
    (l : List A) : pieces separates (a ++ l) = (pieces separates l).modifyHead (a ++ ·) := by
  induction a with
  | nil => cases h : pieces separates l <;> simp [h]
  | cons x a ih =>
    have hx : separates x = false := none x List.mem_cons_self
    have later := ih (fun y hy => none y (List.mem_cons_of_mem _ hy))
    rw [List.cons_append, pieces, if_neg (by simp [hx]), later]
    cases pieces separates l <;> simp

theorem pieces_of_not {separates : A -> Bool} {a : List A} (none : ∀ x ∈ a, separates x = false) :
    pieces separates a = [a] := by
  have h := pieces_append_of_not none []
  simpa [pieces] using h

theorem pieces_append_cons {separates : A -> Bool} {x : A} (hx : separates x = true) (a b : List A) :
    pieces separates (a ++ x :: b) = pieces separates a ++ pieces separates b := by
  induction a with
  | nil => simp [pieces, hx]
  | cons y a ih =>
    rw [List.cons_append, pieces, pieces]
    split
    · rw [ih, List.cons_append]
    · rw [ih]
      cases h : pieces separates a with
      | nil => exact absurd h (pieces_ne_nil _ _)
      | cons first more => simp

theorem pieces_intercalate [DecidableEq A] (separator : A) {l : List (List A)} (some : l ≠ [])
    (free : ∀ a ∈ l, separator ∉ a) : pieces (· = separator) ([separator].intercalate l) = l := by
  induction l with
  | nil => exact absurd rfl some
  | cons a l ih =>
    have here : ∀ x ∈ a, decide (x = separator) = false := by
      intro x hx
      have ne : x ≠ separator := fun h => free a List.mem_cons_self (h ▸ hx)
      simpa using ne
    cases l with
    | nil => simpa using pieces_of_not here
    | cons b l =>
      have later := ih (by simp) (fun c hc => free c (List.mem_cons_of_mem _ hc))
      rw [List.intercalate_cons_cons, List.append_assoc, List.singleton_append,
        pieces_append_cons (by simp), pieces_of_not here, later, List.singleton_append]

theorem pieces_append {separates : A -> Bool} {a b : List A} {init more : List (List A)} {last first : List A}
    (left : pieces separates a = init ++ [last]) (right : pieces separates b = first :: more) :
    pieces separates (a ++ b) = init ++ (last ++ first) :: more := by
  induction a generalizing init last with
  | nil =>
    obtain ⟨rfl, rfl⟩ : init = [] ∧ last = [] := by
      cases init <;> simp_all [pieces]
    exact right
  | cons x a ih =>
    obtain ⟨inner, end_, cut⟩ : ∃ inner end_, pieces separates a = inner ++ [end_] :=
      ⟨_, _, (List.dropLast_append_getLast (pieces_ne_nil separates a)).symm⟩
    rw [pieces, cut] at left
    rw [List.cons_append, pieces, ih cut]
    split at left
    next sep =>
      obtain ⟨rfl, same⟩ := List.append_inj' (show [] :: inner ++ [end_] = _ from left) rfl
      obtain rfl := (List.cons.inj same).1
      rw [if_pos sep]
      rfl
    next noSep =>
      rw [if_neg noSep]
      cases inner with
      | nil =>
        obtain ⟨rfl, same⟩ := List.append_inj' (show [] ++ [x :: end_] = _ from left) rfl
        rw [← (List.cons.inj same).1]
        rfl
      | cons head inner =>
        obtain ⟨rfl, same⟩ := List.append_inj' (show (x :: head) :: inner ++ [end_] = _ from left) rfl
        rw [← (List.cons.inj same).1]
        rfl

theorem pieces_eq (separates : A -> Bool) (l : List A) :
    pieces separates l = l.takeWhile (fun a => !separates a) ::
      match l.dropWhile (fun a => !separates a) with
      | [] => []
      | _ :: rest => pieces separates rest := by
  induction l with
  | nil => rfl
  | cons a l ih =>
    rw [pieces, List.takeWhile_cons, List.dropWhile_cons]
    cases separates a with
    | true => simp
    | false => simp [ih]

theorem exists_pieces (separates : A -> Bool) (l : List A) :
    ∃ more, pieces separates l = l.takeWhile (fun a => !separates a) :: more :=
  ⟨_, pieces_eq separates l⟩

theorem exists_intercalate (separator : A) (first : List A) (more : List (List A)) :
    [separator].intercalate (first :: more) = first ∨
      ∃ rest, [separator].intercalate (first :: more) = first ++ separator :: rest := by
  cases more with
  | nil => exact .inl (by simp)
  | cons second more => exact .inr ⟨_, by rw [List.intercalate_cons_cons, List.append_assoc, List.singleton_append]⟩

theorem intercalate_ne_nil {separator : A} {first : List A} {more : List (List A)} (some : first ≠ []) :
    [separator].intercalate (first :: more) ≠ [] := by
  rcases exists_intercalate separator first more with alone | ⟨rest, along⟩
  · rwa [alone]
  · simp [along]

theorem intercalate_append (separator : A) (before : List (List A)) (last first : List A) (more : List (List A)) :
    [separator].intercalate (before ++ (last ++ first) :: more) =
      [separator].intercalate (before ++ [last]) ++ [separator].intercalate (first :: more) := by
  induction before with
  | nil => cases more <;> simp [List.intercalate_cons_cons]
  | cons part before ih =>
    rw [List.cons_append, List.cons_append, List.intercalate_cons_of_ne_nil (by simp),
      List.intercalate_cons_of_ne_nil (by simp), ih]
    simp only [List.append_assoc]

theorem intercalate_concat_ne_nil (separator : A) (before : List (List A)) {last : List A} (some : last ≠ []) :
    [separator].intercalate (before ++ [last]) ≠ [] := by
  have ends := intercalate_append separator before [] last []
  rw [List.nil_append] at ends
  rw [ends]
  simp [some]

theorem mem_intercalate {separator x : A} (apart : x ≠ separator) (parts : List (List A)) :
    x ∈ [separator].intercalate parts ↔ ∃ part ∈ parts, x ∈ part := by
  induction parts with
  | nil => simp
  | cons first more ih =>
    cases more with
    | nil => simp
    | cons second more =>
      rw [List.intercalate_cons_cons, List.mem_append, List.mem_append, ih, List.mem_singleton]
      simp [apart]

namespace Utf8

theorem eq_of_mem_utf8EncodeChar {c : Char} {b : UInt8} (hb : b ∈ String.utf8EncodeChar c)
    (ascii : b.toNat < 0x80) : c.toNat = b.toNat := by
  have bound : c.toNat < 0x110000 := by
    have scalar : c.toNat < 0xD800 ∨ 0xDFFF < c.toNat ∧ c.toNat < 0x110000 := c.valid
    omega
  have value : c.val.toNat = c.toNat := rfl
  simp only [String.utf8EncodeChar, value] at hb
  -- Every byte of a longer sequence has its highest bit set.
  split_ifs at hb with one two three
  · have same : b = UInt8.ofNat c.toNat := by simpa using hb
    subst same
    simp
    omega
  · simp only [List.mem_cons, List.not_mem_nil, or_false] at hb
    rcases hb with rfl | rfl <;> simp at ascii <;> omega
  · simp only [List.mem_cons, List.not_mem_nil, or_false] at hb
    rcases hb with rfl | rfl | rfl <;> simp at ascii <;> omega
  · simp only [List.mem_cons, List.not_mem_nil, or_false] at hb
    rcases hb with rfl | rfl | rfl | rfl <;> simp at ascii <;> omega

theorem encode_singleton_ascii {c : Char} (ascii : c.toNat < 0x80) : encode [c] = [UInt8.ofNat c.toNat] := by
  simp only [encode, List.flatMap_cons, List.flatMap_nil, List.append_nil, String.utf8EncodeChar]
  rw [if_pos (by simp only [Char.toNat] at ascii; omega)]
  rfl

theorem pieces_encode {separator : Char} (ascii : separator.toNat < 0x80) (text : List Char) :
    pieces (· = UInt8.ofNat separator.toNat) (encode text) =
      (pieces (· = separator) text).map encode := by
  induction text with
  | nil => rfl
  | cons c text ih =>
    by_cases same : c = separator
    · subst same
      have byte := encode_singleton_ascii ascii
      simp only [encode, List.flatMap_cons, List.flatMap_nil, List.append_nil] at byte
      rw [encode_cons, byte, List.singleton_append, pieces, if_pos (by simp), pieces, if_pos (by simp),
        List.map_cons, ih]
      rfl
    · have none : ∀ b ∈ String.utf8EncodeChar c, decide (b = UInt8.ofNat separator.toNat) = false := by
        intro b hb
        rw [decide_eq_false_iff_not]
        rintro rfl
        have low : (UInt8.ofNat separator.toNat).toNat = separator.toNat := by simp; omega
        have h := eq_of_mem_utf8EncodeChar hb (by omega)
        exact same (Char.toNat_inj.mp (h.trans low))
      rw [encode_cons, pieces_append_of_not none, ih, pieces, if_neg (by simpa using same)]
      cases pieces (· = separator) text <;> simp

theorem encode_intercalate {separator : Char} (ascii : separator.toNat < 0x80) (l : List (List Char)) :
    encode ([separator].intercalate l) = [UInt8.ofNat separator.toNat].intercalate (l.map encode) := by
  induction l with
  | nil => rfl
  | cons a l ih =>
    cases l with
    | nil => simp
    | cons b l =>
      simp only [List.map_cons] at ih ⊢
      rw [List.intercalate_cons_cons, List.intercalate_cons_cons, encode_append, encode_append, ih,
        encode_singleton_ascii ascii]

end Utf8

end StylesheetImports
