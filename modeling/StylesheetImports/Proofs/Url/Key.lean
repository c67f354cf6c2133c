import Mathlib.Logic.Function.Basic
import StylesheetImports.Proofs.Path.Ancestors
import StylesheetImports.Proofs.Url.File
import StylesheetImports.Proofs.Url.Joining

set_option autoImplicit false

namespace StylesheetImports

namespace Url

theorem encodeName_injective : Function.Injective (Percent.encode inFileName) :=
  Function.LeftInverse.injective (g := fun text => Percent.decode (Utf8.encode text))
    (Percent.decode_encode (by decide))

theorem slash_not_mem_encodeName (name : Bytes) : '/' ∉ Percent.encode inFileName name := by
  have table : ∀ b, (!(Percent.encodeByte inFileName b).contains '/') = true := forall_byte (by decide +kernel)
  intro mem
  obtain ⟨b, _, inside⟩ := List.mem_flatMap.mp mem
  have apart := table b
  rw [List.contains_iff_mem.mpr inside] at apart
  exact absurd apart (by decide)

theorem renderSegments_inj {names more : List (List Char)} (some : names ≠ []) (some' : more ≠ [])
    (free : ∀ name ∈ names, '/' ∉ name) (free' : ∀ name ∈ more, '/' ∉ name)
    (same : renderSegments names = renderSegments more) : names = more := by
  have cut {l : List (List Char)} (some : l ≠ []) (free : ∀ name ∈ l, '/' ∉ name) :
      pieces (· = '/') (renderSegments l) = [] :: l := by
    refine pieces_renderSegments (by decide) some fun name mem c hc => ?_
    rw [decide_eq_false_iff_not]
    rintro rfl
    exact free name mem hc
  have whole := cut some free
  rw [same, cut some' free'] at whole
  exact (List.cons.inj whole).2.symm

def ofNames (names : List Bytes) : Url :=
  ofSegments (names.map (Percent.encode inFileName))

theorem exists_ofNames {p : Path} (absolute : p.isAbsolute = true) :
    ∃ names : List Bytes, (∀ n ∈ names, IsName n) ∧ p.normalize = .ofComponents (.root :: names.map .name) ∧
      ofPath? p = some (ofNames names) := by
  obtain ⟨names, written, steps, isName⟩ :=
    Path.exists_names_of_normal (Path.isAbsolute_normalize absolute) (Path.normalize_normalize _)
  refine ⟨names, isName, written, ?_⟩
  rw [ofPath?, if_pos absolute, steps, List.drop_one, List.tail_cons, encodeNames, List.map_map]
  rfl

theorem render_ofNames (names : List Bytes) :
    (ofNames names).render = "file:".toList ++ ("//".toList ++
      renderSegments (if names = [] then [[]] else names.map (Percent.encode inFileName))) := by
  have written : ofNames names = ofWritten (if names = [] then [[]] else names.map (Percent.encode inFileName)) := by
    simp [ofNames, ofSegments, ofWritten]
  rw [written, render_ofWritten]

theorem ofNames_inj {names more : List Bytes} (isName : ∀ n ∈ names, IsName n) (isName' : ∀ n ∈ more, IsName n)
    (same : (ofNames names).render = (ofNames more).render) : names = more := by
  rw [render_ofNames, render_ofNames] at same
  have segments := List.append_cancel_left (List.append_cancel_left same)
  have free (l : List Bytes) :
      ∀ s ∈ (if l = [] then [[]] else l.map (Percent.encode inFileName)), '/' ∉ s := by
    split
    next => simp
    next =>
      intro s mem
      obtain ⟨name, _, rfl⟩ := List.mem_map.mp mem
      exact slash_not_mem_encodeName name
  have some (l : List Bytes) : (if l = [] then [[]] else l.map (Percent.encode inFileName)) ≠ [] := by
    split <;> simp_all
  have equal := renderSegments_inj (some names) (some more) (free names) (free more) segments
  -- The root is written as one empty segment, which no name is.
  have alone {l : List Bytes} (isName : ∀ n ∈ l, IsName n) : [[]] ≠ l.map (Percent.encode inFileName) := by
    intro root
    obtain ⟨name, mem, empty⟩ := List.mem_map.mp (root ▸ List.mem_singleton_self ([] : List Char))
    exact (isName name mem).text_ne_nil (encodeName_injective (empty.trans rfl))
  split at equal
  next empty =>
    split at equal
    next empty' => rw [empty, empty']
    next => exact absurd equal (alone isName')
  next =>
    split at equal
    next => exact absurd equal.symm (alone isName)
    next => exact List.map_injective_iff.mpr encodeName_injective equal

/-- A path has a location exactly when it is absolute. The location leads back to the steps of the normal form, and
two paths have one location, or one text of it, exactly when they have one normal form. -/
theorem ofPath?_key (p : Path) :
    ((ofPath? p).isSome = true ↔ p.isAbsolute = true) ∧
      (p.isAbsolute = true -> ∃ u back, ofPath? p = some u ∧ u.toPath? = some back ∧
        back.isAbsolute = true ∧ back.components = p.normalize.components) ∧
      ∀ q : Path, p.isAbsolute = true -> q.isAbsolute = true ->
        (ofPath? p = ofPath? q ↔ p.normalize = q.normalize) ∧
          ((ofPath? p).map toString = (ofPath? q).map toString ↔ p.normalize = q.normalize) := by
  refine ⟨by simp [ofPath?], fun absolute => ?_, fun q absolute absolute' => ?_⟩
  next =>
    obtain ⟨u, made, back⟩ := exists_ofPath? absolute
    obtain ⟨absolute', same⟩ := components_closeDrive (Path.isAbsolute_normalize absolute)
    exact ⟨u, _, made, back, absolute', same⟩
  next =>
    obtain ⟨names, isName, normal, made⟩ := exists_ofNames absolute
    obtain ⟨more, isName', normal', made'⟩ := exists_ofNames absolute'
    have told (same : (ofPath? p).map toString = (ofPath? q).map toString) : p.normalize = q.normalize := by
      rw [made, made', Option.map_some, Option.map_some] at same
      have text := String.ofList_injective (Option.some.inj same)
      rw [normal, normal', ofNames_inj isName isName' text]
    refine ⟨⟨fun same => told (by rw [same]), ofPath?_congr absolute absolute'⟩, told, fun same => ?_⟩
    rw [ofPath?_congr absolute absolute' same]

-- A name of a blank, `%`, `#`, `?`, a backslash and a byte that is no text.
def oddName : Bytes := [32, 37, 35, 63, 92, 255]

theorem ofPath?_key_odd :
    let p : Path := { bytes := slash :: oddName ++ [slash] }
    let q : Path := { bytes := slash :: oddName ++ [slash, dot, dot, slash, slash, dot, slash] ++ oddName }
    p.isAbsolute = true ∧ q.isAbsolute = true ∧ p.normalize = q.normalize ∧ ofPath? p = ofPath? q ∧
      ∃ u back, ofPath? q = some u ∧ u.toPath? = some back ∧ back.components = [.root, .name oddName] := by
  intro p q
  have absolute : p.isAbsolute = true := by decide +kernel
  have absolute' : q.isAbsolute = true := by decide +kernel
  have normal : p.normalize = q.normalize := by decide +kernel
  obtain ⟨_, leads, alike⟩ := ofPath?_key p
  obtain ⟨u, back, made, there, _, same⟩ := leads absolute
  have one : ofPath? p = ofPath? q := (alike q absolute absolute').1.mpr normal
  have steps : p.normalize.components = [.root, .name oddName] := by decide +kernel
  exact ⟨absolute, absolute', normal, one, u, back, one ▸ made, there, same.trans steps⟩

end Url

end StylesheetImports
