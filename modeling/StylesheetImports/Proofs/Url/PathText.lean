import StylesheetImports.Proofs.Text.Percent
import StylesheetImports.Proofs.Text.Pieces
import StylesheetImports.Url.PathText

/-!
How the path of a locator grows. Segments are written behind a path one after the other: a name stands at the end
then, and a dot segment leads to the directory that it names, as long as no drive is in its way.
-/

set_option autoImplicit false

namespace StylesheetImports

namespace Url

-- Whether a character stands in a written segment: it is not encoded, left out or read as the end
-- of the segment.
def isWritten (c : Char) : Bool :=
  c.toNat < 0x80 && !inPath (UInt8.ofNat c.toNat) && c ≠ '/' && c ≠ '\\'

structure Segment where
  raw : List Char
  written : List Char
  free : '/' ∉ raw
  noDots : raw ≠ ['.'] ∧ raw ≠ ['.', '.']
  chars : ∀ c ∈ written, isWritten c = true
  read : Percent.decode (Utf8.encode written) = Utf8.encode raw
  drive : isDrive raw = true -> written = raw

structure Survives (c : Char) : Prop where
  printed : 0x20 < c.toNat
  ascii : c.toNat < 0x80
  plain : inPath (UInt8.ofNat c.toNat) = false
  inside : endsPath c = false
  seen : isIgnored c = false
  noSlash : isSlash true c = false

theorem survives_of_isWritten {c : Char} (h : isWritten c = true) : Survives c := by
  have low : c.toNat < 0x80 := by
    simp only [isWritten, Bool.and_eq_true, decide_eq_true_eq] at h
    exact h.1.1.1
  have chars : ∀ c, c.toNat < 0x80 -> (!isWritten c || (0x20 < c.toNat && !inPath (UInt8.ofNat c.toNat) && !endsPath c &&
      !isIgnored c && !isSlash true c)) = true := forall_ascii (by decide +kernel)
  have row := chars c low
  simp only [h, Bool.not_true, Bool.false_or, Bool.and_eq_true, decide_eq_true_eq, Bool.not_eq_true'] at row
  obtain ⟨⟨⟨⟨printed, plain⟩, inside⟩, seen⟩, noSlash⟩ := row
  exact ⟨printed, low, plain, inside, seen, noSlash⟩

theorem encode_eq_self {escaped : UInt8 -> Bool} {text : List Char}
    (plain : ∀ c ∈ text, c.toNat < 0x80 ∧ escaped (UInt8.ofNat c.toNat) = false) :
    Percent.encode escaped (Utf8.encode text) = text := by
  induction text with
  | nil => rfl
  | cons c text ih =>
    obtain ⟨low, free⟩ := plain c List.mem_cons_self
    have byte := Utf8.encode_singleton_ascii low
    have same : (UInt8.ofNat c.toNat).toNat = c.toNat := by simp; omega
    have parts : Utf8.encode (c :: text) = UInt8.ofNat c.toNat :: Utf8.encode text := by
      have split : c :: text = [c] ++ text := rfl
      rw [split, Utf8.encode_append, byte]
      rfl
    rw [parts, Percent.encode_cons, ih fun d mem => plain d (List.mem_cons_of_mem c mem), Percent.encodeByte,
      if_neg (by simp [free, same, Nat.not_le.mpr low]), same, Char.ofNat_toNat]
    rfl

theorem encode_written {written : List Char} (chars : ∀ c ∈ written, isWritten c = true) :
    Percent.encode inPath (Utf8.encode written) = written :=
  encode_eq_self fun c mem => ⟨(survives_of_isWritten (chars c mem)).ascii, (survives_of_isWritten (chars c mem)).plain⟩

theorem isDrive_iff {text : List Char} :
    isDrive text = true ↔ ∃ c d, text = [c, d] ∧ c.isAlpha = true ∧ (d = ':' ∨ d = '|') := by
  unfold isDrive
  split
  next c d => simp
  next other =>
    simp only [Bool.false_eq_true, false_iff]
    rintro ⟨c, d, rfl, _⟩
    exact other c d rfl

theorem lt_of_isAlpha {c : Char} (letter : c.isAlpha = true) : c.toNat < 0x80 := by
  have ranges : (decide ('A'.val ≤ c.val ∧ c.val ≤ 'Z'.val) || (decide ('a'.val ≤ c.val) && decide (c.val ≤ 'z'.val))) =
      true := letter
  simp only [Bool.or_eq_true, Bool.and_eq_true, decide_eq_true_eq, UInt32.le_iff_toNat_le] at ranges
  have code : c.toNat = c.val.toNat := rfl
  have capital : 'Z'.val.toNat = 90 := rfl
  have small : 'z'.val.toNat = 122 := rfl
  omega

theorem encode_drive {escaped : UInt8 -> Bool} {text : List Char} (drive : isDrive text = true)
    (plain : ∀ e, e.toNat < 0x80 ->
      (!(e.isAlpha || e = ':' || e = '|') || !escaped (UInt8.ofNat e.toNat)) = true) :
    Percent.encode escaped (Utf8.encode text) = text := by
  obtain ⟨c, d, rfl, letter, mark⟩ := isDrive_iff.mp drive
  have free (e : Char) (kind : e.isAlpha = true ∨ e = ':' ∨ e = '|') :
      e.toNat < 0x80 ∧ escaped (UInt8.ofNat e.toNat) = false := by
    have low : e.toNat < 0x80 := by
      rcases kind with letter | rfl | rfl
      · exact lt_of_isAlpha letter
      · decide
      · decide
    have stands : (e.isAlpha || e = ':' || e = '|') = true := by simpa [or_assoc] using kind
    have row := plain e low
    rw [stands] at row
    exact ⟨low, by simpa using row⟩
  refine encode_eq_self fun e mem => ?_
  simp only [List.mem_cons, List.not_mem_nil, or_false] at mem
  rcases mem with rfl | rfl
  · exact free e (.inl letter)
  · exact free e (.inr mark)

theorem toNat_ne_of_mem_encode {raw : List Char} {c : Char} (ascii : c.toNat < 0x80) (free : c ∉ raw) {b : UInt8}
    (mem : b ∈ Utf8.encode raw) : b.toNat ≠ c.toNat := by
  intro same
  obtain ⟨d, hd, hb⟩ := List.mem_flatMap.mp mem
  have code := Utf8.eq_of_mem_utf8EncodeChar hb (by omega)
  exact free (Char.toNat_inj.mp (code.trans same) ▸ hd)

namespace Segment

def empty : Segment :=
  { raw := [], written := [], free := by simp, noDots := by simp, chars := by simp, read := rfl, drive := fun _ => rfl }

def ofFileName (raw : List Char) (free : '/' ∉ raw) (noDots : raw ≠ ['.'] ∧ raw ≠ ['.', '.']) : Segment where
  raw := raw
  written := Percent.encode inFileName (Utf8.encode raw)
  free := free
  noDots := noDots
  chars := by
    intro c mem
    obtain ⟨b, _, mem⟩ := List.mem_flatMap.mp mem
    have bytes : ∀ b, (Percent.encodeByte inFileName b).all isWritten = true := forall_byte (by decide +kernel)
    exact List.all_eq_true.mp (bytes b) c mem
  read := Percent.decode_encode (by decide) _
  drive drive := encode_drive drive (forall_ascii (by decide +kernel))

def ofReference (raw : List Char) (free : '/' ∉ raw) (noDots : raw ≠ ['.'] ∧ raw ≠ ['.', '.']) (noBackslash : '\\' ∉ raw)
    (plain : Percent.decode (Utf8.encode raw) = Utf8.encode raw) : Segment where
  raw := raw
  written := Percent.encode inPath (Utf8.encode raw)
  free := free
  noDots := noDots
  chars := by
    intro c mem
    obtain ⟨b, inRaw, mem⟩ := List.mem_flatMap.mp mem
    have bytes : ∀ b, (b.toNat = 47 || b.toNat = 92 || (Percent.encodeByte inPath b).all isWritten) = true :=
      forall_byte (by decide +kernel)
    have noSlash : b.toNat ≠ 47 := toNat_ne_of_mem_encode (c := '/') (by decide) free inRaw
    have noOther : b.toNat ≠ 92 := toNat_ne_of_mem_encode (c := '\\') (by decide) noBackslash inRaw
    have byte := bytes b
    simp only [noSlash, noOther, decide_false, Bool.false_or] at byte
    exact List.all_eq_true.mp byte c mem
  read := by
    rw [Percent.decode_encode_of_percent (by decide), plain]
    intro b digit
    have bytes : ∀ b, (!(Percent.digitValue? b).isSome || !inPath b) = true := forall_byte (by decide +kernel)
    simpa [digit] using bytes b
  drive drive := encode_drive drive (forall_ascii (by decide +kernel))

variable (s : Segment)

theorem survives {c : Char} (mem : c ∈ s.written) : Survives c :=
  survives_of_isWritten (s.chars c mem)

theorem written_free : '/' ∉ s.written :=
  fun mem => absurd (s.survives mem).noSlash (by decide)

theorem raw_eq_nil (none : s.written = []) : s.raw = [] := by
  have read := s.read
  rw [none] at read
  exact Utf8.encode_injective read.symm

theorem written_of_isDrive (drive : isDrive s.written = true) : s.raw = s.written := by
  have read := s.read
  obtain ⟨c, d, written, letter, mark⟩ := isDrive_iff.mp drive
  rw [written] at read ⊢
  have noSign {e : Char} (low : e.toNat < 0x80) (apart : e ≠ '%') : UInt8.ofNat e.toNat ≠ 37 := by
    intro same
    have code := congrArg UInt8.toNat same
    have value : (UInt8.ofNat e.toNat).toNat = e.toNat := by simp; omega
    rw [value] at code
    exact apart (Char.toNat_inj.mp code)
  have low := lt_of_isAlpha letter
  have low' : d.toNat < 0x80 := by rcases mark with rfl | rfl <;> decide
  have bytes : Utf8.encode [c, d] = [UInt8.ofNat c.toNat, UInt8.ofNat d.toNat] := by
    have parts : [c, d] = [c] ++ [d] := rfl
    rw [parts, Utf8.encode_append, Utf8.encode_singleton_ascii low, Utf8.encode_singleton_ascii low']
    rfl
  -- Neither of the two is a percent sign, so nothing is decoded.
  rw [bytes, Percent.decode_cons, Percent.decode_cons, Percent.decode, ← bytes] at read
  · exact Utf8.encode_injective read.symm
  · exact noSign low' (by rcases mark with rfl | rfl <;> decide)
  · refine noSign low ?_
    rintro rfl
    exact absurd letter (by decide)

theorem isDrive_written : isDrive s.written = isDrive s.raw := by
  rw [Bool.eq_iff_iff]
  exact ⟨fun drive => by rwa [s.written_of_isDrive drive], fun drive => by rwa [s.drive drive]⟩

theorem isPlainDrive_written (noDrive : isPlainDrive s.raw = false) : isPlainDrive s.written = false := by
  cases drive : isDrive s.written with
  | false => rw [isPlainDrive, drive, Bool.false_and]
  | true => rwa [← s.written_of_isDrive drive]

end Segment

theorem exists_of_plainDots {segment rest : List Char} (h : plainDots segment = '.' :: rest) :
    ∃ more, plainDots more = rest ∧
      Percent.decode (Utf8.encode segment) = 46 :: Percent.decode (Utf8.encode more) := by
  have two : Percent.digitValue? 50 = some 2 := rfl
  have small : Percent.digitValue? 101 = some 14 := rfl
  have capital : Percent.digitValue? 69 = some 14 := rfl
  unfold plainDots at h
  split at h
  next more => exact ⟨more, (List.cons.inj h).2, Percent.decode_of_digits two small (Utf8.encode more)⟩
  next more => exact ⟨more, (List.cons.inj h).2, Percent.decode_of_digits two capital (Utf8.encode more)⟩
  · obtain ⟨rfl, same⟩ := List.cons.inj h
    exact ⟨_, same, Percent.decode_cons (by decide) _⟩
  · simp at h

theorem eq_nil_of_plainDots {segment : List Char} (h : plainDots segment = []) : segment = [] := by
  unfold plainDots at h
  split at h <;> simp_all

theorem decode_of_plainDots (segment : List Char) :
    (plainDots segment = ['.'] -> Percent.decode (Utf8.encode segment) = Utf8.encode ['.']) ∧
      (plainDots segment = ['.', '.'] -> Percent.decode (Utf8.encode segment) = Utf8.encode ['.', '.']) := by
  have one {text : List Char} (h : plainDots text = ['.']) : Percent.decode (Utf8.encode text) = [46] := by
    obtain ⟨more, none, read⟩ := exists_of_plainDots h
    rw [read, eq_nil_of_plainDots none]
    rfl
  refine ⟨one, fun two => ?_⟩
  obtain ⟨more, single, read⟩ := exists_of_plainDots two
  rw [read, one single]
  rfl

theorem Segment.plainDots_ne (s : Segment) : plainDots s.written ≠ ['.'] ∧ plainDots s.written ≠ ['.', '.'] := by
  refine ⟨fun one => s.noDots.1 ?_, fun two => s.noDots.2 ?_⟩
  · exact Utf8.encode_injective (s.read.symm.trans ((decode_of_plainDots _).1 one))
  · exact Utf8.encode_injective (s.read.symm.trans ((decode_of_plainDots _).2 two))

def directoryText (names : List (List Char)) : List Char :=
  renderSegments names ++ ['/']

theorem renderSegments_append (names more : List (List Char)) :
    renderSegments (names ++ more) = renderSegments names ++ renderSegments more := by
  rw [renderSegments, List.flatMap_append]
  rfl

theorem renderSegments_concat (names : List (List Char)) (name : List Char) :
    renderSegments (names ++ [name]) = directoryText names ++ name := by
  rw [renderSegments_append, directoryText, List.append_assoc]
  simp [renderSegments]

theorem directoryText_concat (names : List (List Char)) (name : List Char) :
    directoryText (names ++ [name]) = directoryText names ++ name ++ ['/'] := by
  rw [directoryText, renderSegments_concat]

theorem lastSegment_append (names : List (List Char)) {name : List Char} (free : '/' ∉ name) :
    lastSegment (directoryText names ++ name) = name := by
  have kept : ∀ c ∈ name.reverse, decide (c ≠ '/') = true := by
    intro c mem
    rw [decide_eq_true_eq]
    rintro rfl
    exact free (List.mem_reverse.mp mem)
  rw [lastSegment, directoryText, List.reverse_append, List.reverse_append, List.takeWhile_append_of_pos kept]
  simp

theorem withoutLast_append (names : List (List Char)) {name : List Char} (free : '/' ∉ name)
    (noDrive : isPlainDrive name = false) : withoutLast true (directoryText names ++ name) = directoryText names := by
  simp only [withoutLast, lastSegment_append names free, noDrive, Bool.and_false, Bool.false_eq_true, if_false]
  rw [List.length_append, Nat.add_sub_cancel, List.take_left]

theorem endsWithSlash_directoryText (names : List (List Char)) : endsWithSlash (directoryText names) = true := by
  simp [endsWithSlash, directoryText]

theorem closed_directoryText (names : List (List Char)) : closed (directoryText names) = directoryText names := by
  rw [closed, if_pos (endsWithSlash_directoryText names)]

theorem startsWithDrive_name {name : List Char} (chars : ∀ c ∈ name, isWritten c = true) (noDrive : isDrive name = false) :
    startsWithDrive (name ++ ['/']) = false := by
  match name with
  | [] => rfl
  | [c] => simp [startsWithDrive, isDrive]
  | [c, d] =>
    simp [startsWithDrive, noDrive]
  | c :: d :: e :: more =>
    have third := survives_of_isWritten (chars e (by simp))
    simp [startsWithDrive, third.inside, third.noSlash]

theorem leave_directoryText {held : List Segment}
    (noDrive : ∀ last, held.getLast? = some last -> isDrive last.raw = false) :
    leave true (directoryText (held.map Segment.written)) = directoryText (held.dropLast.map Segment.written) := by
  rcases List.eq_nil_or_concat held with rfl | ⟨before, last, rfl⟩
  · decide
  · rw [List.concat_eq_append] at *
    have here : isDrive last.written = false := by rw [last.isDrive_written, noDrive last (by simp)]
    have noPlain : isPlainDrive last.written = false := by rw [isPlainDrive, here, Bool.false_and]
    rw [List.map_append, List.map_singleton, List.dropLast_concat]
    have may : mayLeave (directoryText (before.map Segment.written ++ [last.written])) = true := by
      rw [mayLeave, directoryText, List.dropLast_concat, renderSegments_concat, lastSegment_append _ last.written_free,
        startsWithDrive_name last.chars here]
      simp [directoryText]
    rw [leave, endsWithSlash_directoryText, may, Bool.and_self, if_pos rfl, directoryText, List.dropLast_concat,
      renderSegments_concat, withoutLast_append _ last.written_free noPlain]

theorem isPlainDrive_tail (names : List (List Char)) : isPlainDrive (directoryText names).tail = false := by
  cases names with
  | nil => rfl
  | cons name names => simp [isPlainDrive, directoryText, renderSegments]

theorem addSegment_eq {d : Draft} {names : List (List Char)} (path : d.path = directoryText names)
    {segment : List Char} (seen : ∀ c ∈ segment, isIgnored c = false) :
    d.addSegment true segment =
      { path := directoryText names ++ Percent.encode inPath (Utf8.encode segment)
        start := (directoryText names).length
        onDrive := d.onDrive } := by
  rw [Draft.addSegment, pieces_of_not seen, path]
  cases segment with
  | nil => simp [Percent.encode]
  | cons c segment => simp [Draft.add, isPlainDrive_tail]

theorem length_directoryText_eq_one {names : List (List Char)} : (directoryText names).length = 1 ↔ names = [] := by
  cases names <;> simp [directoryText, renderSegments]

section

variable {names : List (List Char)} {written : List Char} (onDrive slash : Bool)

theorem close_eq (names : List (List Char)) (written : List Char) :
    (Draft.close true slash
        { path := directoryText names ++ written, start := (directoryText names).length, onDrive }).path =
      if plainDots written = ['.', '.'] then
        if slash then closed (leave true (directoryText names)) else leave true (directoryText names)
      else if plainDots written = ['.'] then directoryText names
      else
        directoryText names ++
          (if names = [] ∧ isDrive written = true then written.take 1 ++ [':'] else written) ++
            if slash then ['/'] else [] := by
  have first : (decide ((directoryText names).length = 1) && isDrive written) = true ↔
      names = [] ∧ isDrive written = true := by
    rw [Bool.and_eq_true, decide_eq_true_eq, length_directoryText_eq_one]
  simp only [Draft.close, List.take_left, List.drop_left, closed_directoryText, Bool.true_and, first]
  split
  · rfl
  · split <;> rfl

theorem close_current (dots : plainDots written = ['.']) :
    (Draft.close true slash
        { path := directoryText names ++ written, start := (directoryText names).length, onDrive }).path =
      directoryText names := by
  rw [close_eq, dots, if_neg (by decide), if_pos rfl]

theorem close_parent (dots : plainDots written = ['.', '.']) {above : List (List Char)}
    (leaves : leave true (directoryText names) = directoryText above) :
    (Draft.close true slash
        { path := directoryText names ++ written, start := (directoryText names).length, onDrive }).path =
      directoryText above := by
  rw [close_eq, dots, if_pos rfl, leaves, closed_directoryText, ite_self]

theorem close_name (s : Segment) (noBar : names = [] -> isDrive s.raw = true -> isPlainDrive s.raw = true) :
    (Draft.close true slash
        { path := directoryText names ++ s.written, start := (directoryText names).length, onDrive }).path =
      directoryText names ++ s.written ++ if slash then ['/'] else [] := by
  obtain ⟨noDot, noDots⟩ := s.plainDots_ne
  have kept : (if names = [] ∧ isDrive s.written = true then s.written.take 1 ++ [':'] else s.written) = s.written := by
    split
    next drive =>
      rw [s.isDrive_written] at drive
      have plain := noBar drive.1 drive.2
      rw [s.drive drive.2]
      obtain ⟨c, d, raw, _, mark⟩ := isDrive_iff.mp drive.2
      have colon : d = ':' := by
        rw [raw, isPlainDrive, Bool.and_eq_true] at plain
        simpa using plain.2
      rw [raw, colon]
      rfl
    next => rfl
  rw [close_eq, if_neg noDots, if_neg noDot, kept]

end

-- How a path goes on with a segment. Empty segments count, since `..` takes them back.
def enter (names : List (List Char)) (segment : List Char) : List (List Char) :=
  if segment = ['.'] then names else if segment = ['.', '.'] then names.dropLast else names ++ [segment]

structure IsPlain (segment : List Char) : Prop where
  seen : ∀ c ∈ segment, isIgnored c = false
  free : '/' ∉ segment
  noBackslash : '\\' ∉ segment
  unescaped : Percent.decode (Utf8.encode segment) = Utf8.encode segment

-- Segments that can be entered one by one from `names`: no `..` meets a drive or an empty segment,
-- and no drive with a bar comes first.
structure Enters (names segments : List (List Char)) : Prop where
  up : ∀ before after, segments = before ++ ['.', '.'] :: after ->
    ∀ last ∈ (before.foldl enter names).getLast?, last ≠ [] ∧ isDrive last = false
  drive : ∀ before segment after, segments = before ++ segment :: after -> isDrive segment = true ->
    isPlainDrive segment = false -> before.foldl enter names ≠ []

theorem enters_nil (names : List (List Char)) : Enters names [] :=
  ⟨fun before after split => by simp at split, fun before segment after split => by simp at split⟩

theorem enters_cons {names segments : List (List Char)} {segment : List Char} :
    Enters names (segment :: segments) ↔
      (segment = ['.', '.'] -> ∀ last ∈ names.getLast?, last ≠ [] ∧ isDrive last = false) ∧
        (isDrive segment = true -> isPlainDrive segment = false -> names ≠ []) ∧ Enters (enter names segment) segments := by
  constructor
  · intro enters
    refine ⟨?_, enters.drive [] segment segments rfl, fun before after split => ?_, fun before other after split => ?_⟩
    · rintro rfl
      exact enters.up [] segments rfl
    · exact enters.up (segment :: before) after (by rw [split, List.cons_append])
    · exact enters.drive (segment :: before) other after (by rw [split, List.cons_append])
  · rintro ⟨up, drive, tail⟩
    refine ⟨fun before after split => ?_, fun before other after split => ?_⟩
    · cases before with
      | nil => exact up (List.cons.inj split).1
      | cons first before =>
        obtain ⟨rfl, behind⟩ := List.cons.inj split
        exact tail.up before after behind
    · cases before with
      | nil =>
        obtain ⟨rfl, _⟩ := List.cons.inj split
        exact drive
      | cons first before =>
        obtain ⟨rfl, behind⟩ := List.cons.inj split
        exact tail.drive before other after behind

instance decidableEnters : (names segments : List (List Char)) -> Decidable (Enters names segments)
  | names, [] => .isTrue (enters_nil names)
  | names, segment :: segments =>
    have := decidableEnters (enter names segment) segments
    decidable_of_iff _ enters_cons.symm

theorem exists_close {d : Draft} {held : List Segment} (path : d.path = directoryText (held.map Segment.written))
    {segment : List Char} {more : List (List Char)} (plain : IsPlain segment)
    (enters : Enters (held.map Segment.raw) (segment :: more)) :
    ∃ held' : List Segment, held'.map Segment.raw = enter (held.map Segment.raw) segment ∧
      ((d.addSegment true segment).close true true).path = directoryText (held'.map Segment.written) ∧
        (((d.addSegment true segment).close true false).path = directoryText (held'.map Segment.written) ∨
          ((d.addSegment true segment).close true false).path = renderSegments (held'.map Segment.written)) := by
  rw [addSegment_eq path plain.seen]
  by_cases here : segment = ['.']
  · subst here
    have written : Percent.encode inPath (Utf8.encode ['.']) = ['.'] := by decide
    rw [written]
    exact ⟨held, rfl, close_current _ _ rfl, .inl (close_current _ _ rfl)⟩
  by_cases up : segment = ['.', '.']
  · subst up
    have written : Percent.encode inPath (Utf8.encode ['.', '.']) = ['.', '.'] := by decide
    have above : leave true (directoryText (held.map Segment.written)) =
        directoryText (held.dropLast.map Segment.written) := by
      refine leave_directoryText fun last mem => ((enters_cons.mp enters).1 rfl last.raw ?_).2
      simp [mem]
    rw [written]
    exact ⟨held.dropLast, by simp [enter, List.map_dropLast], close_parent _ _ rfl above,
      .inl (close_parent _ _ rfl above)⟩
  · let entered := Segment.ofReference segment plain.free ⟨here, up⟩ plain.noBackslash plain.unescaped
    have noBar (root : held.map Segment.written = []) (drive : isDrive entered.raw = true) :
        isPlainDrive entered.raw = true := by
      refine Bool.ne_false_iff.mp fun bar => ?_
      refine (enters_cons.mp enters).2.1 drive bar ?_
      rw [List.map_eq_nil_iff.mp root]
      rfl
    refine ⟨held ++ [entered], by simp [enter, here, up, entered, Segment.ofReference], ?_, .inr ?_⟩
    · rw [List.map_append, List.map_singleton, directoryText_concat]
      exact close_name _ true entered noBar
    · rw [List.map_append, List.map_singleton, renderSegments_concat]
      exact (close_name _ false entered noBar).trans (List.append_nil _)

theorem exists_addAll {segments : List (List Char)} (some : segments ≠ []) {d : Draft} {held : List Segment}
    (path : d.path = directoryText (held.map Segment.written)) (plain : ∀ segment ∈ segments, IsPlain segment)
    (enters : Enters (held.map Segment.raw) segments) :
    ∃ held' : List Segment, held'.map Segment.raw = segments.foldl enter (held.map Segment.raw) ∧
      ((Draft.addAll true d segments).path = directoryText (held'.map Segment.written) ∨
        (Draft.addAll true d segments).path = renderSegments (held'.map Segment.written)) := by
  induction segments generalizing d held with
  | nil => exact absurd rfl some
  | cons segment more ih =>
    obtain ⟨held', names, slashed, last⟩ := exists_close path (plain segment List.mem_cons_self) enters
    cases more with
    | nil => exact ⟨held', names, last⟩
    | cons next more =>
      have tail := (enters_cons.mp enters).2.2
      rw [← names] at tail
      obtain ⟨held'', names', reached⟩ :=
        ih (by simp) slashed (fun s mem => plain s (List.mem_cons_of_mem segment mem)) tail
      exact ⟨held'', by rw [names', names]; rfl, reached⟩

theorem addAll_written {held : List Segment} (some : held ≠ []) {d : Draft} {names : List (List Char)} (below : names ≠ [])
    (path : d.path = directoryText names) :
    (Draft.addAll true d (held.map Segment.written)).path = renderSegments (names ++ held.map Segment.written) := by
  induction held generalizing d names with
  | nil => exact absurd rfl some
  | cons s held ih =>
    have seen : ∀ c ∈ s.written, isIgnored c = false := fun c mem => (s.survives mem).seen
    have step (slash : Bool) := close_name d.onDrive slash s (fun root => absurd root below)
    have added := addSegment_eq path seen
    rw [encode_written s.chars] at added
    cases held with
    | nil =>
      rw [List.map_singleton, Draft.addAll, added, step, renderSegments_concat]
      exact List.append_nil _
    | cons next held =>
      have slashed := step true
      rw [if_pos rfl, ← directoryText_concat] at slashed
      rw [List.map_cons, List.map_cons, Draft.addAll, added, ← List.map_cons, ih (by simp) (by simp) slashed]
      · simp
      · simp

end Url

end StylesheetImports
