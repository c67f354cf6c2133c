import StylesheetImports.Path.Normal
import StylesheetImports.Proofs.Text.Pieces

set_option autoImplicit false

namespace StylesheetImports

def stepsOf (bytes : Bytes) : List Component :=
  (segments bytes).filterMap Component.ofSegment?

theorem stepsOf_append_slash (a b : Bytes) : stepsOf (a ++ slash :: b) = stepsOf a ++ stepsOf b := by
  rw [stepsOf, segments, pieces_append_cons (by simp), List.filterMap_append]
  rfl

@[simp] theorem stepsOf_nil : stepsOf [] = [] := rfl

theorem stepsOf_slash (bytes : Bytes) : stepsOf (slash :: bytes) = stepsOf bytes := by
  simpa using stepsOf_append_slash [] bytes

namespace Component

def IsSegment (c : Component) : Prop :=
  slash ∉ c.text ∧ ofSegment? c.text = some c

theorem text_of_ofSegment? {segment : Bytes} {c : Component} (h : ofSegment? segment = some c) :
    c.text = segment := by
  unfold ofSegment? at h
  split_ifs at h with idle up
  · rw [← Option.some.inj h, up]
    rfl
  · rw [← Option.some.inj h]
    rfl

theorem isSegment_of_mem_stepsOf {bytes : Bytes} {c : Component} (h : c ∈ stepsOf bytes) : c.IsSegment := by
  obtain ⟨segment, mem, same⟩ := List.mem_filterMap.mp h
  have text := text_of_ofSegment? same
  refine ⟨?_, by rw [text]; exact same⟩
  intro hslash
  have free := not_separates_of_mem_pieces mem (text ▸ hslash)
  simp at free

theorem exists_text_of_mem_stepsOf {text : List Char} {c : Component} (h : c ∈ stepsOf (Utf8.encode text)) :
    ∃ t, c.text = Utf8.encode t := by
  obtain ⟨segment, mem, same⟩ := List.mem_filterMap.mp h
  have ascii : '/'.toNat < 0x80 := by decide
  have cut : segments (Utf8.encode text) = (pieces (· = '/') text).map Utf8.encode := Utf8.pieces_encode ascii text
  rw [cut] at mem
  obtain ⟨t, _, rfl⟩ := List.mem_map.mp mem
  exact ⟨t, text_of_ofSegment? same⟩

theorem isSegment_parent : IsSegment .parent := by
  refine ⟨?_, ?_⟩ <;> decide

theorem IsSegment.eq_parent_or_name {c : Component} (h : c.IsSegment) : c = .parent ∨ ∃ n, c = .name n := by
  cases c with
  | root => exact absurd List.mem_cons_self h.1
  | current => exact absurd h.2 (by decide)
  | parent => exact .inl rfl
  | name n => exact .inr ⟨n, rfl⟩

theorem isIdle_text {c : Component} (h : c.IsSegment) : isIdle c.text = false := by
  have read := h.2
  unfold ofSegment? at read
  split at read
  next => simp at read
  next busy => simpa using busy

theorem IsSegment.text_ne_nil {c : Component} (h : c.IsSegment) : c.text ≠ [] := by
  intro empty
  simpa [empty, isIdle] using isIdle_text h

theorem IsSegment.text_ne_dot {c : Component} (h : c.IsSegment) : c.text ≠ [dot] := by
  intro lone
  simpa [lone, isIdle] using isIdle_text h

end Component

-- Whether a byte string stands in a path as a step of its own.
def IsName (bytes : Bytes) : Prop :=
  (Component.name bytes).IsSegment

theorem flatMap_slash {l : List Bytes} (some : l ≠ []) :
    l.flatMap (slash :: ·) = slash :: joinSegments l := by
  induction l with
  | nil => exact absurd rfl some
  | cons a l ih =>
    cases l with
    | nil => simp [joinSegments]
    | cons b l =>
      rw [List.flatMap_cons, ih (by simp), joinSegments, joinSegments, List.intercalate_cons_cons]
      simp

theorem segments_joinSegments {steps : List Component} (some : steps ≠ []) (h : ∀ c ∈ steps, c.IsSegment) :
    segments (joinSegments (steps.map Component.text)) = steps.map Component.text := by
  apply pieces_intercalate slash (by simpa using some)
  intro text mem
  obtain ⟨c, hc, rfl⟩ := List.mem_map.mp mem
  exact (h c hc).1

theorem filterMap_text {steps : List Component} (h : ∀ c ∈ steps, c.IsSegment) :
    (steps.map Component.text).filterMap Component.ofSegment? = steps := by
  have same : ∀ c ∈ steps, (Component.ofSegment? ∘ Component.text) c = some c := fun c hc => (h c hc).2
  rw [List.filterMap_map, List.filterMap_congr same, List.filterMap_some]

theorem stepsOf_joinSegments {steps : List Component} (h : ∀ c ∈ steps, c.IsSegment) :
    stepsOf (joinSegments (steps.map Component.text)) = steps := by
  cases steps with
  | nil => rfl
  | cons c steps => rw [stepsOf, segments_joinSegments (by simp) h, filterMap_text h]

namespace Path

theorem components_of_absolute {p : Path} (h : p.isAbsolute = true) :
    p.components = .root :: stepsOf p.bytes := by
  unfold isAbsolute at h
  unfold components
  split
  next empty => simp [empty] at h
  next b rest same =>
    have hb : b = slash := by simpa [same] using h
    subst hb
    rw [if_pos rfl, same, stepsOf_slash]
    rfl

theorem components_of_relative {p : Path} (relative : p.isAbsolute = false) :
    p.components = stepsOf p.bytes ∨ p.components = .current :: stepsOf p.bytes := by
  unfold components stepsOf
  split
  next empty => rw [empty]; exact .inl rfl
  next b rest written =>
    have noSlash : b ≠ slash := by
      rintro rfl
      simp [isAbsolute, written] at relative
    obtain ⟨first, more, cut⟩ := List.exists_cons_of_ne_nil (pieces_ne_nil (· = slash) (b :: rest))
    rw [if_neg noSlash, written, segments, cut]
    simp only
    split_ifs with lone
    next =>
      subst lone
      exact .inr rfl
    next =>
      left
      cases read : Component.ofSegment? first <;> simp [read]

theorem mem_stepsOf_of_name {p : Path} {n : Bytes} (mem : .name n ∈ p.components) : .name n ∈ stepsOf p.bytes := by
  cases absolute : p.isAbsolute with
  | true =>
    rw [components_of_absolute absolute] at mem
    exact (List.mem_cons.mp mem).resolve_left (by simp)
  | false =>
    rcases components_of_relative absolute with steps | steps
    · rwa [steps] at mem
    · rw [steps] at mem
      exact (List.mem_cons.mp mem).resolve_left (by simp)

theorem isSegment_of_mem_components {p : Path} (relative : p.isAbsolute = false) {c : Component}
    (h : c ∈ p.components) : c = .current ∨ c.IsSegment := by
  rcases components_of_relative relative with steps | steps
  · rw [steps] at h
    exact .inr (Component.isSegment_of_mem_stepsOf h)
  · rw [steps] at h
    exact (List.mem_cons.mp h).imp_right Component.isSegment_of_mem_stepsOf

theorem root_not_mem_components {p : Path} (relative : p.isAbsolute = false) : .root ∉ p.components := by
  intro mem
  rcases isSegment_of_mem_components relative mem with current | segment
  · cases current
  · exact segment.1 List.mem_cons_self

theorem isAbsolute_join {base : Path} (h : base.isAbsolute = true) (p : Path) :
    (base.join p).isAbsolute = true := by
  unfold join
  unfold isAbsolute at h ⊢
  split_ifs with absolute
  · exact absolute
  · cases same : base.bytes with
    | nil => simp [same] at h
    | cons b rest => simpa [same] using h
  · cases same : base.bytes with
    | nil => simp [same] at h
    | cons b rest => simpa [same] using h

theorem isAbsolute_join_of_relative {p : Path} (relative : p.isAbsolute = false) (base : Path) :
    (base.join p).isAbsolute = base.isAbsolute := by
  rw [join, if_neg (by simp [relative])]
  cases base with
  | mk bytes =>
    cases bytes with
    | nil => exact relative
    | cons b rest => split_ifs <;> rfl

theorem components_append_slash {bytes : Bytes} (some : bytes ≠ []) (more : Bytes) :
    ({ bytes := bytes ++ slash :: more } : Path).components = ({ bytes } : Path).components ++ stepsOf more := by
  obtain ⟨b, rest, rfl⟩ := List.exists_cons_of_ne_nil some
  unfold components
  dsimp only [List.cons_append]
  split_ifs with absolute
  next => exact congrArg (Component.root :: ·) (stepsOf_append_slash rest more)
  next =>
    have cut : segments (b :: (rest ++ slash :: more)) = segments (b :: rest) ++ segments more :=
      pieces_append_cons (by simp) (b :: rest) more
    rw [cut]
    cases parts : segments (b :: rest) with
    | nil => exact absurd parts (pieces_ne_nil _ _)
    | cons first others => simp [stepsOf]

theorem components_join_some {base p : Path} (some : base.bytes ≠ []) (relative : p.isAbsolute = false) :
    (base.join p).components = base.components ++ stepsOf p.bytes := by
  unfold join
  rw [if_neg (by simp [relative])]
  split_ifs with last
  next =>
    have last : base.bytes.getLast? = .some slash := by simpa [some] using last
    obtain ⟨kept, same⟩ := List.getLast?_eq_some_iff.mp last
    obtain ⟨bytes⟩ := base
    obtain rfl : bytes = kept ++ [slash] := same
    dsimp only
    rw [List.append_assoc, List.singleton_append]
    rcases eq_or_ne kept [] with rfl | before
    · rfl
    · rw [components_append_slash before, components_append_slash before, stepsOf_nil, List.append_nil]
  next => exact components_append_slash some p.bytes

theorem components_join {base p : Path} (h : base.isAbsolute = true) (relative : p.isAbsolute = false) :
    (base.join p).components = base.components ++ stepsOf p.bytes := by
  refine components_join_some (fun empty => ?_) relative
  simp [isAbsolute, empty] at h

theorem components_ofComponents_absolute {steps : List Component} (h : ∀ c ∈ steps, c.IsSegment) :
    (ofComponents (.root :: steps)).components = .root :: steps := by
  rw [components_of_absolute (by simp [ofComponents, isAbsolute]), ofComponents, stepsOf_slash,
    stepsOf_joinSegments h]

theorem isAbsolute_ofComponents (steps : List Component) :
    (ofComponents (.root :: steps)).isAbsolute = true := by
  simp [ofComponents, isAbsolute]

theorem ofComponents_relative {steps : List Component} (h : ∀ c ∈ steps, c.IsSegment) :
    ofComponents steps = { bytes := joinSegments (steps.map Component.text) } := by
  cases steps with
  | nil => rfl
  | cons c steps =>
    unfold ofComponents
    split
    next same => exact absurd List.mem_cons_self (h .root (same ▸ List.mem_cons_self)).1
    next => rfl

theorem isAbsolute_ofComponents_relative {steps : List Component} (h : ∀ c ∈ steps, c.IsSegment) :
    (ofComponents steps).isAbsolute = false := by
  rw [ofComponents_relative h]
  cases steps with
  | nil => rfl
  | cons c steps =>
    obtain ⟨free, _⟩ := h c List.mem_cons_self
    cases text : c.text with
    | nil => exact absurd text (h c List.mem_cons_self).text_ne_nil
    | cons b rest =>
      have hb : b ≠ slash := by
        rintro rfl
        rw [text] at free
        exact free List.mem_cons_self
      cases steps with
      | nil => simpa [isAbsolute, joinSegments, text] using hb
      | cons d steps => simpa [isAbsolute, joinSegments, text, List.intercalate_cons_cons] using hb

theorem components_ofComponents_relative {steps : List Component} (h : ∀ c ∈ steps, c.IsSegment) :
    (ofComponents steps).components = steps := by
  have relative := isAbsolute_ofComponents_relative h
  rw [ofComponents_relative h] at relative ⊢
  cases steps with
  | nil => rfl
  | cons c steps =>
    have parts := segments_joinSegments (by simp) h
    -- A lone `.` at the start would be read as a step; no segment of a step is one.
    have first : c.text ≠ [dot] := by
      intro lone
      have read := (h c List.mem_cons_self).2
      rw [lone] at read
      exact absurd read (by simp [Component.ofSegment?, isIdle])
    generalize joinSegments ((c :: steps).map Component.text) = bytes at relative parts
    cases bytes with
    | nil =>
      have lone : c.text = [] := by
        have heads := congrArg List.head? parts
        simpa [segments, pieces] using heads.symm
      exact absurd lone (h c List.mem_cons_self).text_ne_nil
    | cons b rest =>
      have hb : b ≠ slash := by simpa [isAbsolute] using relative
      simp only [components]
      rw [if_neg hb, parts]
      simp only [List.map_cons, if_neg first, (h c List.mem_cons_self).2, Option.toList_some,
        filterMap_text (fun d hd => h d (List.mem_cons_of_mem _ hd)), List.singleton_append]

end Path

end StylesheetImports
