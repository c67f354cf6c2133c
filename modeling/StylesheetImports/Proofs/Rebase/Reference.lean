import StylesheetImports.Proofs.Path.Relative
import StylesheetImports.Rebase.Reference
import StylesheetImports.Stylesheet.Lexeme

set_option autoImplicit false

namespace StylesheetImports

open Utf8

namespace Path

theorem exists_text_join {base p : Path} (hbase : ∃ t, base.bytes = encode t)
    (hp : ∃ t, p.bytes = encode t) : ∃ t, (base.join p).bytes = encode t := by
  obtain ⟨b, hb⟩ := hbase
  obtain ⟨t, ht⟩ := hp
  have mark : [slash] = encode ['/'] := rfl
  unfold join
  split_ifs
  · exact ⟨t, ht⟩
  · exact ⟨b ++ t, by rw [encode_append, hb, ht]⟩
  · refine ⟨b ++ '/' :: t, ?_⟩
    rw [hb, ht, ← List.singleton_append, mark, ← encode_append, ← encode_append, List.singleton_append]

theorem relativeTo_congr {a b : Path} (same : a.normalize = b.normalize) (base : Path) :
    a.relativeTo base = b.relativeTo base := by
  unfold relativeTo
  rw [same]

theorem encode_toSlash {steps : List Component} (segment : ∀ c ∈ steps, c.IsSegment)
    (text : ∀ c ∈ steps, ∃ t, c.text = encode t) :
    encode (ofComponents steps).toSlash = joinSegments (steps.map Component.text) := by
  have ascii : '/'.toNat < 0x80 := by decide
  have noRoot : steps.filter (· ≠ .root) = steps := by
    rw [List.filter_eq_self]
    intro c hc
    rcases (segment c hc).eq_parent_or_name with rfl | ⟨n, rfl⟩ <;> rfl
  have written : (steps.map fun step => decodeLossy step.text).map encode = steps.map Component.text := by
    rw [List.map_map]
    apply List.map_congr_left
    intro c hc
    obtain ⟨t, ht⟩ := text c hc
    simp [ht]
  rw [toSlash, components_ofComponents_relative segment, noRoot, encode_intercalate ascii, written]
  rfl

end Path

namespace Reference

open Lexeme

theorem unescape_escape_append (text rest : List Char) : unescape (escape text ++ rest) = text ++ unescape rest := by
  induction text with
  | nil => rfl
  | cons c text ih =>
    unfold escape
    split_ifs with special
    · rw [List.cons_append, List.cons_append, unescape, ih, List.cons_append]
    · -- A backslash is escaped itself, so one that starts nothing never stands here.
      have plain : c ≠ '\\' := by
        rintro rfl
        exact special (by decide)
      rw [List.cons_append, unescape.eq_4 _ _ (fun d rest same _ => plain same) (fun same _ => plain same), ih,
        List.cons_append]

theorem unescape_escape (text : List Char) : unescape (escape text) = text := by
  have alone := unescape_escape_append text []
  rwa [List.append_nil, unescape, List.append_nil] at alone

theorem escape_append (a b : List Char) : escape (a ++ b) = escape a ++ escape b := by
  induction a with
  | nil => rfl
  | cons c a ih =>
    rw [List.cons_append, escape, escape, ih]
    split <;> rfl

theorem escape_injective {a b : List Char} (h : escape a = escape b) : a = b := by
  rw [← unescape_escape a, h, unescape_escape]

theorem head?_dropWhile_escape (text : List Char) :
    ((escape text).dropWhile isNameChar).head? ≠ some '(' := by
  induction text with
  | nil => simp [escape]
  | cons c text ih =>
    rw [escape]
    split
    next => simp [show isNameChar '\\' = false by decide]
    next plain =>
      rw [List.dropWhile_cons]
      split
      next => exact ih
      next =>
        rw [List.head?_cons]
        rintro ⟨⟩
        exact plain (by decide)

theorem head?_dropWhile_of_callsName {text : List Char} (h : callsName text = true) :
    (text.dropWhile isNameChar).head? = some '(' := by
  cases text with
  | nil => simp [callsName] at h
  | cons c rest =>
    simp only [callsName, Bool.and_eq_true, decide_eq_true_eq] at h
    have name : isNameChar c = true := by
      rcases (by simpa [isLetter] using h.1 : c.isAlpha = true ∨ c = '_') with letter | rfl
      · simp [isNameChar, Char.isAlphanum, letter]
      · decide
    rw [List.dropWhile_cons, if_pos name]
    exact h.2

theorem head?_dropWhile_of_isCall {text : List Char} (h : isCall text = true) :
    (text.dropWhile isNameChar).head? = some '(' := by
  unfold isCall at h
  split at h
  next rest =>
    rw [List.dropWhile_cons, if_pos (by decide)]
    exact head?_dropWhile_of_callsName h
  next => exact head?_dropWhile_of_callsName h

theorem isCall_of_append {text taken rest : List Char} (h : taken ++ rest = escape text) :
    isCall taken = false := by
  rw [Bool.eq_false_iff]
  intro call
  -- A call has a parenthesis behind its name, and in escaped text none stands behind a name.
  have paren := head?_dropWhile_of_isCall call
  have later : (taken ++ rest).dropWhile isNameChar = if (taken.dropWhile isNameChar).isEmpty then
      rest.dropWhile isNameChar else taken.dropWhile isNameChar ++ rest := List.dropWhile_append
  split at later
  next empty =>
    rw [List.isEmpty_iff.mp empty] at paren
    simp at paren
  next =>
    refine head?_dropWhile_escape text ?_
    rw [← h, later, List.head?_append, paren]
    rfl

theorem interpolates_append {a b : List Char} (apart : b.head? ≠ some '\x7b') :
    interpolates (a ++ b) = (interpolates a || interpolates b) := by
  induction a using interpolates.induct with
  | case1 => simp [interpolates]
  | case2 rest => simp [interpolates]
  | case3 c rest noOpen ih =>
    have goesOn : ∀ tail, c = '#' -> rest ++ b = '\x7b' :: tail -> False := by
      rintro tail rfl head
      cases rest with
      | nil => exact apart (by rw [show b = '\x7b' :: tail from head]; rfl)
      | cons d rest =>
        rw [List.cons_append, List.cons.injEq] at head
        exact noOpen rest rfl (by rw [head.1])
    rw [List.cons_append, interpolates.eq_3 _ _ goesOn, ih, interpolates.eq_3 _ _ noOpen]

theorem interpolates_append_left {a : List Char} (h : interpolates a = true) (b : List Char) :
    interpolates (a ++ b) = true := by
  induction a using interpolates.induct with
  | case1 => simp [interpolates] at h
  | case2 rest => rfl
  | case3 c rest noOpen ih =>
    rw [interpolates.eq_3 _ _ noOpen] at h
    rw [List.cons_append]
    unfold interpolates
    split
    next empty => simp at empty
    next => rfl
    next same =>
      rw [List.cons.injEq] at same
      rw [← same.2]
      exact ih h

theorem exists_escape_of_append {text first rest : List Char} (h : escape text = escape first ++ rest) :
    ∃ last, rest = escape last := by
  have escaped : needsEscape '\\' = true := by decide
  induction first generalizing text with
  | nil => exact ⟨text, h.symm⟩
  | cons c first ih =>
    cases text with
    | nil =>
      rw [escape, escape] at h
      split at h <;> simp at h
    | cons d text =>
      rw [escape, escape] at h
      split at h <;> split at h <;> simp only [List.cons_append, List.cons.injEq] at h
      next => exact ih h.2.2
      next plain => exact absurd (h.1 ▸ escaped) plain
      next plain _ => exact absurd (h.1 ▸ escaped) plain
      next => exact ih h.2

-- A relative path as it is written in an argument. The empty path is written as a dot.
def written (relative : List Char) : List Char :=
  if relative = [] then ['.'] else escape relative

theorem rebase?_eq_some {value : List Char} {fileDir entryDir : Path} {r : List Char}
    (h : rebase? value fileDir entryDir = some r) :
    isSkipped value = false ∧ (fileDir.join { bytes := encode value }).climbsAboveStart = false ∧
      r = written ((fileDir.join { bytes := encode value }).relativeTo entryDir).toSlash := by
  simp only [rebase?] at h
  split at h
  next => simp at h
  next noSkip =>
    split at h
    next => simp at h
    next noClimb =>
      refine ⟨by simpa using noSkip, by simpa using noClimb, ?_⟩
      unfold written
      split at h
      next same => rw [if_pos same, ← Option.some.inj h]
      next some => rw [if_neg some, ← Option.some.inj h]

theorem escape_ne_nil {text : List Char} (h : text ≠ []) : escape text ≠ [] := by
  cases text with
  | nil => exact absurd rfl h
  | cons c rest =>
    unfold escape
    split_ifs <;> simp

theorem exists_written_eq_escape (relative : List Char) :
    ∃ text, text ≠ [] ∧ written relative = escape text := by
  unfold written
  split_ifs with empty
  · exact ⟨['.'], by simp, by decide⟩
  · exact ⟨relative, empty, rfl⟩

theorem written_ne_nil (relative : List Char) : written relative ≠ [] := by
  obtain ⟨text, some, same⟩ := exists_written_eq_escape relative
  exact same ▸ escape_ne_nil some

theorem stepsOf_unescape_written (relative : List Char) :
    stepsOf (encode (unescape (written relative))) = stepsOf (encode relative) := by
  unfold written
  split_ifs with empty
  · subst empty
    decide
  · rw [unescape_escape]

theorem isAbsolute_unescape_written {relative : List Char}
    (h : ({ bytes := encode relative } : Path).isAbsolute = false) :
    ({ bytes := encode (unescape (written relative)) } : Path).isAbsolute = false := by
  unfold written
  split_ifs with empty
  · decide
  · rwa [unescape_escape]

theorem normalize_join_written {target entryDir : Path} (ht : target.isAbsolute = true)
    (he : entryDir.isAbsolute = true) (text : ∃ t, target.bytes = encode t) :
    (entryDir.join { bytes := encode (unescape (written (target.relativeTo entryDir).toSlash)) }).normalize
      = target.normalize := by
  have relative := Path.relativeTo_eq_route ht he
  have segment := Path.isSegment_of_mem_route ht he
  have leads := Path.foldl_push_route ht he
  obtain ⟨names, hnames, mem⟩ := Path.exists_fold_components ht
  obtain ⟨t, spelled⟩ := text
  -- Each step is `..` or a step of the target, and both are text, so nothing is lost in decoding them.
  have stepText : ∀ c ∈ Component.route (Component.fold entryDir.components) (Component.fold target.components),
      ∃ t, c.text = encode t := by
    intro c hc
    rcases Path.mem_route ht he hc with rfl | hc
    · exact ⟨['.', '.'], by decide⟩
    · rw [hnames, List.tail_cons] at hc
      obtain ⟨n, hn, rfl⟩ := List.mem_map.mp hc
      exact Component.exists_text_of_mem_stepsOf (spelled ▸ mem n hn)
  have bytes := Path.encode_toSlash segment stepText
  have below : ({ bytes := encode (target.relativeTo entryDir).toSlash } : Path).isAbsolute = false := by
    rw [relative, bytes, ← Path.ofComponents_relative segment]
    exact Path.isAbsolute_ofComponents_relative segment
  rw [Path.normalize, Path.components_join he (isAbsolute_unescape_written below), Component.fold_append,
    stepsOf_unescape_written, relative, bytes, stepsOf_joinSegments segment, leads, List.reverse_reverse]
  rfl

/-- A rebased argument is not empty. From the entry directory it names the path that the argument names from
the directory of its stylesheet, and arguments that name one path are written alike. -/
theorem rebase?_keeps_target (file : String) (entryDir : Path) (value : String) {r : List Char}
    (hfile : (Path.ofString file).isAbsolute = true) (hentry : entryDir.isAbsolute = true)
    (h : rebase? value.toList (Path.ofString file) entryDir = some r) :
    (entryDir.join (Path.ofString (String.ofList (unescape r)))).normalize =
        ((Path.ofString file).join (Path.ofString value)).normalize ∧
      r ≠ [] ∧
      ∀ (otherFile otherValue : String) (s : List Char),
        rebase? otherValue.toList (Path.ofString otherFile) entryDir = some s ->
        ((Path.ofString otherFile).join (Path.ofString otherValue)).normalize =
          ((Path.ofString file).join (Path.ofString value)).normalize -> s = r := by
  obtain ⟨_, _, same⟩ := rebase?_eq_some h
  refine ⟨?_, same ▸ written_ne_nil _, ?_⟩
  · have text : ∃ t, ((Path.ofString file).join { bytes := encode value.toList }).bytes = encode t :=
      Path.exists_text_join ⟨_, rfl⟩ ⟨_, rfl⟩
    have leads := normalize_join_written (Path.isAbsolute_join hfile _) hentry text
    rw [← same] at leads
    simpa [Path.ofString] using leads
  · intro otherFile otherValue s hs alike
    obtain ⟨_, _, sameOther⟩ := rebase?_eq_some hs
    have relative := Path.relativeTo_congr alike entryDir
    rw [same, sameOther]
    simp only [Path.ofString] at relative ⊢
    rw [relative]

theorem rebase?_keeps_target_sibling :
    (Path.ofString "/p/s").isAbsolute = true ∧ (Path.ofString "/p/q/r").isAbsolute = true ∧
      rebase? "../im g/(a).png".toList (Path.ofString "/p/s") "/p/q/r" =
        some "../../im\\ g/\\(a\\).png".toList ∧
      ((Path.ofString "/p/q/r").join
          (Path.ofString (String.ofList (unescape "../../im\\ g/\\(a\\).png".toList)))).normalize =
        ((Path.ofString "/p/s").join (Path.ofString "../im g/(a).png")).normalize := by
  have file : (Path.ofString "/p/s").isAbsolute = true := by decide
  have entry : (Path.ofString "/p/q/r").isAbsolute = true := by decide
  have rebased : rebase? "../im g/(a).png".toList (Path.ofString "/p/s") "/p/q/r" =
      some "../../im\\ g/\\(a\\).png".toList := by decide +kernel
  exact ⟨file, entry, rebased,
    (rebase?_keeps_target "/p/s" "/p/q/r" "../im g/(a).png" file entry rebased).1⟩

end Reference

end StylesheetImports
