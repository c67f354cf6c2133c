import Mathlib.Data.List.TakeWhile
import StylesheetImports.Proofs.Path.Relative

set_option autoImplicit false

namespace StylesheetImports

open Component

theorem stepsOf_name {bytes : Bytes} (h : IsName bytes) : stepsOf bytes = [.name bytes] := by
  have whole : segments bytes = [bytes] := by
    apply pieces_of_not
    intro b hb
    have free : b ≠ slash := by
      rintro rfl
      exact h.1 hb
    simpa using free
  have read : ofSegment? bytes = some (.name bytes) := h.2
  rw [stepsOf, whole]
  simp [read]

namespace Path

theorem trimIdle_text {steps : List Component} (h : ∀ c ∈ steps, c.IsSegment) :
    trimIdle (steps.map Component.text) = steps.map Component.text := by
  rcases List.eq_nil_or_concat steps with rfl | ⟨before, last, rfl⟩
  · rfl
  · have busy := isIdle_text (h last (by simp))
    simp [trimIdle, busy]

theorem dropLastComponent_text {steps : List Component} {c : Component}
    (h : ∀ d ∈ steps ++ [c], d.IsSegment) :
    dropLastComponent ((steps ++ [c]).map Component.text) = some (steps.map Component.text) := by
  have before : ∀ d ∈ steps, d.IsSegment := fun d hd => h d (List.mem_append_left [c] hd)
  unfold dropLastComponent
  rw [trimIdle_text h]
  simp [trimIdle_text before]

theorem parent?_ofComponents {steps : List Component} {c : Component}
    (h : ∀ d ∈ steps ++ [c], d.IsSegment) :
    (ofComponents (.root :: (steps ++ [c]))).parent? = some (ofComponents (.root :: steps)) := by
  rw [ofComponents, parent?]
  simp only [if_true]
  rw [segments_joinSegments (by simp) h, dropLastComponent_text h]
  rfl

theorem fileName?_ofComponents {steps : List Component} {name : Bytes}
    (h : ∀ d ∈ steps ++ [.name name], d.IsSegment) :
    (ofComponents (.root :: (steps ++ [.name name]))).fileName? = some name := by
  rw [fileName?, components_ofComponents_absolute h, ← List.cons_append, List.getLast?_concat]

theorem exists_trimIdle (pieces : List Bytes) :
    ∃ idle, pieces = trimIdle pieces ++ idle ∧ ∀ segment ∈ idle, isIdle segment = true := by
  refine ⟨(pieces.reverse.takeWhile isIdle).reverse, ?_, fun segment mem => ?_⟩
  · rw [trimIdle, ← List.reverse_append, List.takeWhile_append_dropWhile, List.reverse_reverse]
  · exact List.mem_takeWhile_imp (List.mem_reverse.mp mem)

theorem filterMap_trimIdle (pieces : List Bytes) :
    (trimIdle pieces).filterMap ofSegment? = pieces.filterMap ofSegment? := by
  obtain ⟨idle, whole, none⟩ := exists_trimIdle pieces
  have dropped : idle.filterMap ofSegment? = [] := by
    rw [List.filterMap_eq_nil_iff]
    intro segment mem
    rw [ofSegment?, if_pos (none segment mem)]
  conv => rhs; rw [whole, List.filterMap_append, dropped, List.append_nil]

theorem filterMap_dropLastComponent {pieces kept : List Bytes} (h : dropLastComponent pieces = some kept) :
    ∃ c, pieces.filterMap ofSegment? = kept.filterMap ofSegment? ++ [c] := by
  unfold dropLastComponent at h
  split at h
  next => simp at h
  next trimmed some =>
    obtain ⟨before, last, same⟩ := (List.eq_nil_or_concat (trimIdle pieces)).resolve_left some
    have busy : isIdle last = false := by
      have first : (pieces.reverse.dropWhile isIdle).head? = .some last := by
        rw [← List.getLast?_reverse, ← trimIdle, same, List.concat_eq_append, List.getLast?_concat]
      have stop := List.head?_dropWhile_not isIdle pieces.reverse
      rw [first] at stop
      simpa using stop
    obtain ⟨c, read⟩ : ∃ c, ofSegment? last = .some c := by
      unfold ofSegment?
      rw [if_neg (by simp [busy])]
      split <;> exact ⟨_, rfl⟩
    refine ⟨c, ?_⟩
    rw [← filterMap_trimIdle pieces, same, ← Option.some.inj h, same, List.concat_eq_append, filterMap_trimIdle,
      List.dropLast_concat, List.filterMap_append]
    simp [read]

theorem mem_of_mem_trimIdle {pieces : List Bytes} {segment : Bytes} (h : segment ∈ trimIdle pieces) :
    segment ∈ pieces := by
  obtain ⟨idle, whole, _⟩ := exists_trimIdle pieces
  rw [whole]
  exact List.mem_append_left idle h

theorem mem_of_mem_dropLastComponent {pieces kept : List Bytes} (h : dropLastComponent pieces = some kept)
    {segment : Bytes} (mem : segment ∈ kept) : segment ∈ pieces := by
  unfold dropLastComponent at h
  split at h
  next => simp at h
  next =>
    rw [← Option.some.inj h] at mem
    exact mem_of_mem_trimIdle (List.dropLast_subset _ (mem_of_mem_trimIdle mem))

theorem stepsOf_joinSegments_free {kept : List Bytes} (h : ∀ segment ∈ kept, slash ∉ segment) :
    stepsOf (joinSegments kept) = kept.filterMap ofSegment? := by
  cases kept with
  | nil => rfl
  | cons first more => rw [stepsOf, joinSegments, segments, pieces_intercalate slash (by simp) h]

theorem exists_bytes {p : Path} (absolute : p.isAbsolute = true) : ∃ rest, p.bytes = slash :: rest := by
  cases bytes : p.bytes with
  | nil => simp [isAbsolute, bytes] at absolute
  | cons b rest =>
    have first : b = slash := by simpa [isAbsolute, bytes] using absolute
    exact ⟨rest, by rw [first]⟩

theorem components_of_parent? {p dir : Path} (absolute : p.isAbsolute = true) (h : p.parent? = some dir) :
    dir.isAbsolute = true ∧ ∃ c, p.components = dir.components ++ [c] := by
  obtain ⟨rest, written⟩ := exists_bytes absolute
  rw [parent?, written] at h
  simp only [if_true] at h
  obtain ⟨kept, dropped, same⟩ := Option.map_eq_some_iff.mp h
  obtain ⟨c, split⟩ := filterMap_dropLastComponent dropped
  have free : ∀ segment ∈ kept, slash ∉ segment := by
    intro segment mem hslash
    have apart := not_separates_of_mem_pieces (mem_of_mem_dropLastComponent dropped mem) hslash
    simp at apart
  have there : dir.isAbsolute = true := by rw [← same]; rfl
  refine ⟨there, c, ?_⟩
  rw [components_of_absolute absolute, components_of_absolute there, written, stepsOf_slash, stepsOf, split,
    ← same, stepsOf_slash, stepsOf_joinSegments_free free]
  rfl

theorem fileName?_eq_some {p : Path} {name : Bytes} :
    p.fileName? = some name ↔ p.components.getLast? = some (.name name) := by
  unfold fileName?
  split
  next last => simp [last]
  next other =>
    constructor
    · simp
    · intro last
      exact absurd last (other name)

theorem isName_of_fileName? {p : Path} {name : Bytes} (absolute : p.isAbsolute = true)
    (h : p.fileName? = some name) : IsName name ∧ p.components.getLast? = some (.name name) := by
  have last := fileName?_eq_some.mp h
  have mem := List.mem_of_getLast? last
  rw [components_of_absolute absolute] at mem
  exact ⟨isSegment_of_mem_stepsOf ((List.mem_cons.mp mem).resolve_left (by simp)), last⟩

theorem exists_parent? {p : Path} {name : Bytes} (absolute : p.isAbsolute = true) (named : p.fileName? = some name) :
    ∃ dir, p.parent? = some dir := by
  obtain ⟨rest, written⟩ := exists_bytes absolute
  -- The file name is a step, so not all segments are idle.
  have busy : trimIdle (segments rest) ≠ [] := by
    intro none
    have last := (isName_of_fileName? absolute named).2
    rw [components_of_absolute absolute, written, stepsOf_slash, stepsOf, ← filterMap_trimIdle, none] at last
    simp at last
  rw [parent?, written]
  simp only [if_true, dropLastComponent]
  exact ⟨_, rfl⟩

theorem isAbsolute_of_parent? {q dir : Path} (h : q.parent? = some dir) (absolute : dir.isAbsolute = true) :
    q.isAbsolute = true := by
  unfold parent? at h
  split at h
  next => simp at h
  next b rest written =>
    split at h
    next first => simp [isAbsolute, written, first]
    next noSlash =>
      have kept : ∃ tail more, segments (b :: rest) = (b :: tail) :: more := by
        rw [segments, pieces, if_neg (by simpa using noSlash)]
        obtain ⟨head, more, cut⟩ := List.exists_cons_of_ne_nil (pieces_ne_nil (· = slash) rest)
        exact ⟨head, more, by rw [cut]; rfl⟩
      obtain ⟨tail, more, cut⟩ := kept
      rw [cut] at h
      simp only at h
      -- What is kept of the path begins with its first byte, which is no slash.
      split at h
      next left _ =>
        rw [← Option.some.inj h, isAbsolute] at absolute
        cases left <;> simp [joinSegments, List.intercalate_cons_cons, noSlash] at absolute
      next =>
        rw [← Option.some.inj h] at absolute
        simp [isAbsolute] at absolute

variable {dir p : Path}

theorem isAbsolute_of_isName (name : IsName p.bytes) : p.isAbsolute = false := by
  rw [isAbsolute, decide_eq_false_iff_not]
  intro first
  exact name.1 (List.mem_of_mem_head? first)

theorem components_name (name : IsName p.bytes) : p.components = [.name p.bytes] := by
  have segment : ∀ c ∈ [Component.name p.bytes], c.IsSegment := by
    intro c mem
    rw [List.mem_singleton.mp mem]
    exact name
  have read := components_ofComponents_relative segment
  rw [ofComponents_relative segment] at read
  simpa [joinSegments, Component.text] using read

theorem components_join_name (dir : Path) (name : IsName p.bytes) :
    (dir.join p).components = dir.components ++ [.name p.bytes] := by
  have relative := isAbsolute_of_isName name
  by_cases empty : dir.bytes = []
  next =>
    have alone : dir.join p = p := by simp [join, relative, empty]
    have none : dir.components = [] := by rw [components, empty]
    rw [alone, none, List.nil_append, components_name name]
  next => rw [components_join_some empty relative, stepsOf_name name]

theorem fold_join (dir : Path) (name : IsName p.bytes) :
    fold (dir.join p).components = fold dir.components ++ [.name p.bytes] := by
  rw [components_join_name dir name, fold_append, List.foldl_cons, List.foldl_nil, push_name]
  simp

theorem normalize_join (dir : Path) (name : IsName p.bytes) :
    (dir.join p).normalize = ofComponents (fold dir.components ++ [.name p.bytes]) := by
  rw [normalize, fold_join dir name]

theorem exists_normalize_join (absolute : dir.isAbsolute = true) (name : IsName p.bytes) :
    ∃ steps, dir.normalize = ofComponents (.root :: steps) ∧
      (dir.join p).normalize = ofComponents (.root :: (steps ++ [.name p.bytes])) ∧
      ∀ c ∈ steps ++ [.name p.bytes], c.IsSegment := by
  have segment : ∀ c ∈ (fold dir.components).tail, c.IsSegment := fun c => isSegment_of_mem_fold absolute
  obtain ⟨names, same, _⟩ := exists_fold_components absolute
  rw [same, List.tail_cons] at segment
  refine ⟨names.map .name, by rw [normalize, same], ?_, fun c mem => ?_⟩
  · rw [normalize_join dir name, same]
    rfl
  · rcases List.mem_append.mp mem with before | last
    · exact segment c before
    · rw [List.mem_singleton.mp last]
      exact name

theorem parent?_normalize_join (absolute : dir.isAbsolute = true) (name : IsName p.bytes) :
    (dir.join p).normalize.parent? = some dir.normalize := by
  obtain ⟨steps, here, below, segment⟩ := exists_normalize_join absolute name
  rw [here, below, parent?_ofComponents segment]

theorem fileName?_normalize_join (absolute : dir.isAbsolute = true) (name : IsName p.bytes) :
    (dir.join p).normalize.fileName? = some p.bytes := by
  obtain ⟨steps, _, below, segment⟩ := exists_normalize_join absolute name
  rw [below, fileName?_ofComponents segment]

theorem normalize_join_fileName {q : Path} (absolute : q.isAbsolute = true) (parent : q.parent? = some dir)
    (fileName : q.fileName? = some p.bytes) : (dir.join p).normalize = q.normalize := by
  obtain ⟨there, c, split⟩ := components_of_parent? absolute parent
  obtain ⟨name, last⟩ := isName_of_fileName? absolute fileName
  have same : c = .name p.bytes := by
    rw [split, List.getLast?_concat] at last
    exact Option.some.inj last
  rw [normalize, normalize, fold_join dir name, split, same, fold_append, List.foldl_cons, List.foldl_nil, push_name]
  simp

theorem joinSegments_concat {parts : List Bytes} (some : parts ≠ []) (last : Bytes) :
    joinSegments (parts ++ [last]) = joinSegments parts ++ slash :: last := by
  have whole := flatMap_slash (List.append_ne_nil_of_left_ne_nil some [last])
  rw [List.flatMap_append, flatMap_slash some, List.flatMap_singleton, List.cons_append] at whole
  exact (List.cons.inj whole).2.symm

theorem exists_joinSegments_concat (parts : List Bytes) (last : Bytes) :
    ∃ before, joinSegments (parts ++ [last]) = before ++ last := by
  by_cases none : parts = []
  next => exact ⟨[], by simp [none, joinSegments]⟩
  next => exact ⟨joinSegments parts ++ [slash], by rw [joinSegments_concat none]; simp⟩

theorem exists_bytes_join (absolute : dir.isAbsolute = true) (name : IsName p.bytes) :
    ∃ before, (dir.join p).normalize.bytes = before ++ p.bytes := by
  obtain ⟨steps, _, below, _⟩ := exists_normalize_join absolute name
  obtain ⟨before, same⟩ := exists_joinSegments_concat (steps.map Component.text) p.bytes
  refine ⟨slash :: before, ?_⟩
  rw [below, ofComponents, List.map_append]
  exact congrArg (slash :: ·) same

end Path

end StylesheetImports
