import StylesheetImports.Proofs.Path.Child
import StylesheetImports.Proofs.Text.Percent
import StylesheetImports.Resolve.Relative

set_option autoImplicit false

namespace StylesheetImports

theorem slash_not_mem_encode {text : List Char} (h : '/' ∉ text) : slash ∉ Utf8.encode text := by
  intro mem
  obtain ⟨c, hc, hb⟩ := List.mem_flatMap.mp mem
  have code := Utf8.eq_of_mem_utf8EncodeChar hb (by decide)
  have same : c = '/' := Char.toNat_inj.mp code
  exact h (same ▸ hc)

-- A name of a file, which is no drive either.
structure IsFileName (file : String) : Prop where
  name : IsName (Utf8.encode file.toList)
  noDrive : ∀ b, (Utf8.encode file.toList).getLast? = some b -> b ≠ 58 ∧ b ≠ 124

namespace Url

theorem closeDrive_of_last {bytes : Bytes} (h : ∀ b, bytes.getLast? = some b -> b ≠ 58 ∧ b ≠ 124) :
    closeDrive bytes = bytes := by
  unfold closeDrive
  split
  next mark letter _ _ same =>
    have last : bytes.getLast? = some mark := by rw [List.getLast?_eq_head?_reverse, same, List.head?_cons]
    obtain ⟨noColon, noBar⟩ := h mark last
    rw [if_neg (by simp [noColon, noBar])]
  next => rfl

theorem components_closeDrive {p : Path} (absolute : p.isAbsolute = true) :
    ({ bytes := closeDrive p.bytes } : Path).isAbsolute = true ∧
      ({ bytes := closeDrive p.bytes } : Path).components = p.components := by
  have either : closeDrive p.bytes = p.bytes ∨ closeDrive p.bytes = p.bytes ++ [slash] := by
    unfold closeDrive
    split
    · split
      · exact .inr rfl
      · exact .inl rfl
    · exact .inl rfl
  rcases either with same | closed
  · rw [same]
    exact ⟨absolute, rfl⟩
  · obtain ⟨rest, written⟩ := Path.exists_bytes absolute
    have absolute' : ({ bytes := p.bytes ++ [slash] } : Path).isAbsolute = true := by
      rw [written]
      rfl
    rw [closed]
    refine ⟨absolute', ?_⟩
    rw [Path.components_of_absolute absolute', Path.components_of_absolute absolute]
    simp [stepsOf_append_slash]

theorem isAbsolute_of_toPath? {u : Url} {p : Path} (h : u.toPath? = some p) (some : p.bytes ≠ []) :
    p.isAbsolute = true := by
  unfold toPath? at h
  split at h
  next =>
    split at h
    next names _ _ =>
      split at h
      next =>
        rw [← Option.some.inj h] at some ⊢
        cases names with
        | nil => simp [closeDrive] at some
        | cons name names =>
          -- What closes a drive comes at the end; the path begins with the slash of the first name.
          unfold closeDrive
          split
          next => split <;> rfl
          next => rfl
      next => simp at h
    next => simp at h
  next => simp at h

theorem exists_ofPath? {p : Path} (absolute : p.isAbsolute = true) :
    ∃ u, ofPath? p = some u ∧ u.toPath? = some { bytes := closeDrive p.normalize.bytes } := by
  obtain ⟨names, same, _⟩ := Path.exists_fold_components absolute
  refine ⟨_, if_pos absolute, ?_⟩
  have steps : p.normalize.components.drop 1 = names.map .name := by
    rw [Path.components_normalize, same]
    rfl
  have bytes : p.normalize.bytes = slash :: joinSegments names := by
    rw [Path.normalize, same, Path.ofComponents, List.map_map]
    exact congrArg (slash :: joinSegments ·) (List.map_id names)
  have decoded : (encodeNames (names.map .name)).flatMap (fun name => slash :: Percent.decode (Utf8.encode name)) =
      names.flatMap (slash :: ·) := by
    rw [encodeNames, List.map_map, List.flatMap_map]
    refine congrArg (List.flatMap · names) (funext fun name => ?_)
    exact congrArg (slash :: ·) (Percent.decode_encode (by decide) name)
  have route : (if encodeNames (names.map .name) = [] then [[]] else encodeNames (names.map .name)).flatMap
      (fun name => slash :: Percent.decode (Utf8.encode name)) = slash :: joinSegments names := by
    cases names with
    | nil => rfl
    | cons name names =>
      rw [if_neg (by simp [encodeNames]), decoded, flatMap_slash (by simp)]
  rw [steps, toPath?, bytes, ← route]
  rfl

theorem ofPath?_congr {p q : Path} (absolute : p.isAbsolute = true) (absolute' : q.isAbsolute = true)
    (same : p.normalize = q.normalize) : ofPath? p = ofPath? q := by
  rw [ofPath?, ofPath?, absolute, absolute', same]

end Url

namespace Place

theorem ofUrl?_eq_some {u : Url} {place : Place} :
    ofUrl? u = some place ↔ u.toPath? = some place.path ∧ place.path.parent? = some place.directory ∧
      place.path.fileNameText? = some place.name := by
  simp only [ofUrl?, Option.bind_eq_bind, Option.bind_eq_some_iff, Option.some.injEq]
  constructor
  · rintro ⟨path, there, directory, parent, name, text, rfl⟩
    exact ⟨there, parent, text⟩
  · rintro ⟨there, parent, text⟩
    exact ⟨_, there, _, parent, _, text, rfl⟩

theorem join_name {u : Url} {place : Place} (h : ofUrl? u = some place) :
    place.directory.isAbsolute = true ∧ place.path.isAbsolute = true ∧ '/' ∉ place.name.toList ∧
      (place.directory.join place.name).normalize = place.path.normalize := by
  obtain ⟨there, parent, text⟩ := ofUrl?_eq_some.mp h
  have some : place.path.bytes ≠ [] := by
    intro empty
    simp [Path.parent?, empty] at parent
  have absolute := Url.isAbsolute_of_toPath? there some
  obtain ⟨name, fileName, read⟩ := Option.bind_eq_some_iff.mp text
  obtain ⟨written, decoded, same⟩ := Option.map_eq_some_iff.mp read
  have bytes : name = (Path.ofString place.name).bytes := by
    rw [Path.ofString, ← same, String.toList_ofList, Utf8.encode_of_decode? decoded]
  rw [bytes] at fileName
  refine ⟨(Path.components_of_parent? absolute parent).1, absolute, ?_,
    Path.normalize_join_fileName absolute parent fileName⟩
  intro slashed
  have segment := (Path.isName_of_fileName? absolute fileName).1
  have slashByte : slash ∈ Utf8.encode place.name.toList := by
    obtain ⟨before, after, parts⟩ := List.append_of_mem slashed
    rw [parts, Utf8.encode_append]
    exact List.mem_append_right _ List.mem_cons_self
  exact segment.1 slashByte

theorem exists_ofPath?_join {dir : Path} {file : String} (absolute : dir.isAbsolute = true)
    (fileName : IsFileName file) :
    ∃ u, Url.ofPath? (dir.join file) = some u ∧ u.toPath? = some (dir.join file).normalize ∧
      ofUrl? u = some { path := (dir.join file).normalize, directory := dir.normalize, name := file } := by
  obtain ⟨u, made, back⟩ := Url.exists_ofPath? (Path.isAbsolute_join absolute file)
  have name : IsName (Path.ofString file).bytes := fileName.name
  have closed : Url.closeDrive (dir.join file).normalize.bytes = (dir.join file).normalize.bytes := by
    apply Url.closeDrive_of_last
    intro b last
    obtain ⟨before, ends⟩ := Path.exists_bytes_join absolute name
    obtain ⟨c, bytes, written⟩ := List.exists_cons_of_ne_nil (show (Path.ofString file).bytes ≠ [] from
      name.text_ne_nil)
    rw [ends, List.getLast?_append_of_ne_nil _ (by simp [written])] at last
    exact fileName.noDrive b last
  rw [closed] at back
  refine ⟨u, made, back, ofUrl?_eq_some.mpr ⟨back, Path.parent?_normalize_join absolute name, ?_⟩⟩
  have text : Utf8.decode? (Path.ofString file).bytes = some file.toList := Utf8.decode?_encode _
  simp only [Path.fileNameText?, Path.fileName?_normalize_join absolute name, Option.bind_some, text,
    Option.map_some, String.ofList_toList]

end Place

end StylesheetImports
