import StylesheetImports.Proofs.Path.Child

set_option autoImplicit false

namespace StylesheetImports

open Utf8

-- A text between two slashes that is read as a name.
def IsOrdinary (segment : List Char) : Prop :=
  segment ≠ [] ∧ segment ≠ ['.'] ∧ segment ≠ ['.', '.']

instance (segment : List Char) : Decidable (IsOrdinary segment) :=
  inferInstanceAs (Decidable (_ ∧ _ ∧ _))

def Component.ofName (name : List Char) : Component :=
  .name (encode name)

def Component.shown (step : Component) : List Char :=
  decodeLossy step.text

namespace Component

@[simp] theorem shown_ofName (name : List Char) : (ofName name).shown = name :=
  decodeLossy_encode name

@[simp] theorem shown_parent : Component.parent.shown = ['.', '.'] :=
  decodeLossy_encode ['.', '.']

theorem ofName_injective {a b : List Char} (h : ofName a = ofName b) : a = b :=
  encode_injective (Component.name.inj h)

theorem ofSegment?_encode {segment : List Char} (ordinary : IsOrdinary segment) :
    ofSegment? (encode segment) = some (ofName segment) := by
  obtain ⟨some, noDot, noDots⟩ := ordinary
  have apart (other : List Char) (ne : segment ≠ other) : encode segment ≠ encode other := fun same =>
    ne (encode_injective same)
  have busy : isIdle (encode segment) = false := by
    have first : encode segment ≠ [] := apart [] some
    have second : encode segment ≠ [dot] := apart ['.'] noDot
    simp [isIdle, first, second]
  have third : encode segment ≠ [dot, dot] := apart ['.', '.'] noDots
  rw [ofSegment?, busy, if_neg (by simp), if_neg third]
  rfl

theorem isOrdinary_of_isSegment {name : List Char} (h : (ofName name).IsSegment) :
    IsOrdinary name ∧ '/' ∉ name := by
  have read : ofSegment? (encode name) = some (.name (encode name)) := h.2
  refine ⟨⟨?_, ?_, ?_⟩, ?_⟩
  · rintro rfl
    exact absurd read (by decide)
  · rintro rfl
    exact absurd read (by decide)
  · rintro rfl
    exact absurd read (by decide)
  · intro slashed
    obtain ⟨first, last, rfl⟩ := List.append_of_mem slashed
    apply h.1
    rw [ofName, text, encode_append]
    exact List.mem_append_right _ List.mem_cons_self

end Component

namespace Path

open Component

theorem isAbsolute_text {value : List Char} (relative : value.head? ≠ some '/') :
    ({ bytes := encode value } : Path).isAbsolute = false := by
  cases value with
  | nil => rfl
  | cons c rest =>
    obtain ⟨b, tail, bytes, _⟩ := head_utf8EncodeChar c
    rw [isAbsolute, decide_eq_false_iff_not]
    intro first
    rw [encode_cons, bytes, List.cons_append, List.head?_cons, Option.some.injEq] at first
    have mem : slash ∈ String.utf8EncodeChar c := bytes ▸ first ▸ List.mem_cons_self
    have same : c = '/' := Char.toNat_inj.mp (eq_of_mem_utf8EncodeChar mem (by decide))
    exact relative (by rw [same]; rfl)

theorem exists_names {p : Path} (absolute : p.isAbsolute = true) (text : ∃ t, p.bytes = encode t) :
    ∃ names : List (List Char), fold p.components = .root :: names.map ofName ∧
      ∀ n ∈ names, IsOrdinary n ∧ '/' ∉ n := by
  obtain ⟨bytes, same, mem⟩ := exists_fold_components absolute
  obtain ⟨t, text⟩ := text
  have written : ∀ b ∈ bytes, ofName (decodeLossy b) = .name b := by
    intro b hb
    obtain ⟨n, written⟩ := exists_text_of_mem_stepsOf (text ▸ mem b hb)
    have bytes : b = encode n := written
    rw [bytes, decodeLossy_encode]
    rfl
  refine ⟨bytes.map decodeLossy, ?_, ?_⟩
  · rw [same, List.map_map]
    exact congrArg _ (List.map_congr_left written).symm
  · intro n hn
    obtain ⟨b, hb, rfl⟩ := List.mem_map.mp hn
    apply isOrdinary_of_isSegment
    rw [written b hb]
    exact isSegment_of_mem_stepsOf (mem b hb)

def names (p : Path) : List (List Char) :=
  (p.components.drop 1).map shown

theorem components_of_names {p : Path} (absolute : p.isAbsolute = true) (normal : p.normalize = p)
    (text : ∃ t, p.bytes = encode t) :
    p.components = .root :: p.names.map ofName ∧ ∀ n ∈ p.names, IsOrdinary n ∧ '/' ∉ n := by
  obtain ⟨names, same, ordinary⟩ := exists_names absolute text
  rw [fold_components normal] at same
  have read : p.names = names := by
    have shows : shown ∘ ofName = id := funext shown_ofName
    simp [Path.names, same, shows]
  rw [read]
  exact ⟨same, ordinary⟩

end Path

end StylesheetImports
