import StylesheetImports.Proofs.Url.PathText
import StylesheetImports.Proofs.Url.Reader

set_option autoImplicit false

namespace StylesheetImports

namespace Url

-- A location of a file here, by the segments of its path as they are written.
def ofWritten (names : List (List Char)) : Url :=
  { scheme := fileScheme
    authority := some noServer
    route := .segments names
    query := none
    fragment := none }

def IsRooted (held : List Segment) : Prop :=
  ∃ first more, held = first :: more ∧ (first.written = [] -> more = [])

theorem fileNames_slash (path : List Char) : fileNames ('/' :: path) = fileNames path := by
  rw [fileNames, fileNames, List.dropWhile_cons_of_pos (by decide)]

theorem pieces_renderSegments {separates : Char -> Bool} (slash : separates '/' = true) {names : List (List Char)}
    (some : names ≠ []) (free : ∀ name ∈ names, ∀ c ∈ name, separates c = false) :
    pieces separates (renderSegments names) = [] :: names := by
  induction names with
  | nil => exact absurd rfl some
  | cons name names ih =>
    have split : renderSegments (name :: names) = [] ++ '/' :: (name ++ renderSegments names) := rfl
    rw [split, pieces_append_cons slash, pieces_append_of_not (free name List.mem_cons_self)]
    cases names with
    | nil => simp [renderSegments, pieces]
    | cons other names =>
      rw [ih (by simp) fun n mem => free n (List.mem_cons_of_mem name mem)]
      simp [pieces]

theorem fileNames_of_ne_nil {first : Segment} (some : first.written ≠ []) (more : List Segment) :
    fileNames (renderSegments ((first :: more).map Segment.written)) = (first :: more).map Segment.written := by
  have free : ∀ name ∈ (first :: more).map Segment.written, ∀ c ∈ name, decide (c = '/') = false := by
    intro name mem c hc
    obtain ⟨s, _, rfl⟩ := List.mem_map.mp mem
    rw [decide_eq_false_iff_not]
    rintro rfl
    exact s.written_free hc
  have cut := pieces_renderSegments (by decide) (by simp) free
  obtain ⟨c, rest, written⟩ := List.exists_cons_of_ne_nil some
  have apart : c ≠ '/' := by
    rintro rfl
    exact first.written_free (written ▸ List.mem_cons_self)
  have split : renderSegments ((first :: more).map Segment.written) =
      '/' :: (c :: (rest ++ renderSegments (more.map Segment.written))) := by
    simp [renderSegments, written]
  rw [split] at cut ⊢
  rw [pieces, if_pos (by decide)] at cut
  rw [fileNames_slash, fileNames, List.dropWhile_cons_of_neg (by simpa using apart), namesOf, if_neg (by simp),
    List.drop_one, List.tail_cons]
  exact (List.cons.inj cut).2

theorem exists_fileNames (held : List Segment) :
    ∃ kept : List Segment, IsRooted kept ∧ fileNames (renderSegments (held.map Segment.written)) = kept.map Segment.written ∧
      (kept.map Segment.raw).filter (· ≠ []) = (held.map Segment.raw).filter (· ≠ []) := by
  induction held with
  | nil => exact ⟨[.empty], ⟨.empty, [], rfl, fun _ => rfl⟩, rfl, rfl⟩
  | cons s held ih =>
    by_cases none : s.written = []
    · obtain ⟨kept, rooted, names, raws⟩ := ih
      refine ⟨kept, rooted, ?_, ?_⟩
      · rw [← names, List.map_cons, none]
        exact fileNames_slash _
      · rw [raws, List.map_cons, List.filter_cons_of_neg (by simp [s.raw_eq_nil none])]
    · exact ⟨s :: held, ⟨s, held, rfl, fun empty => absurd empty none⟩, fileNames_of_ne_nil none held, rfl⟩

theorem IsRooted.fileNames_eq {held : List Segment} (rooted : IsRooted held) :
    fileNames (renderSegments (held.map Segment.written)) = held.map Segment.written := by
  obtain ⟨first, more, rfl, alone⟩ := rooted
  by_cases none : first.written = []
  · rw [alone none, List.map_singleton, none]
    rfl
  · exact fileNames_of_ne_nil none more

theorem finish_of_path (authority : Option Authority) (route : Route) {text : List Char}
    (path : ∀ c ∈ text, endsPath c = false) :
    finish fileScheme authority route text = { scheme := fileScheme, authority, route, query := none, fragment := none } := by
  have none : (visible text).dropWhile (fun c => !endsPath c) = [] := by
    rw [List.dropWhile_eq_nil_iff]
    intro c mem
    rw [path c (List.mem_of_mem_filter mem)]
    rfl
  simp only [finish, none]
  rfl

theorem ofText_eq (path : List Char) {text : List Char} (inPath : ∀ c ∈ text, endsPath c = false) :
    Draft.ofText true true path text =
      Draft.addAll true { path, start := path.length, onDrive := false } (pieces (isSlash true) text) := by
  have whole : text.takeWhile (fun c => !endsPath c) = text := by
    rw [List.takeWhile_eq_self_iff]
    intro c mem
    rw [inPath c mem]
    rfl
  rw [Draft.ofText, whole]

theorem render_ofWritten (names : List (List Char)) :
    (ofWritten names).render = "file:".toList ++ ("//".toList ++ renderSegments names) := by
  simp [render, ofWritten, fileScheme, noServer, Authority.render, renderRoute]

section

variable {held : List Segment}

theorem printed_renderSegments {c : Char} (mem : c ∈ renderSegments (held.map Segment.written)) :
    0x20 < c.toNat ∧ endsPath c = false := by
  obtain ⟨name, named, inside⟩ := List.mem_flatMap.mp mem
  obtain ⟨s, _, rfl⟩ := List.mem_map.mp named
  rcases List.mem_cons.mp inside with rfl | inside
  · decide
  · exact ⟨(s.survives inside).printed, (s.survives inside).inside⟩

theorem path_ofText_renderSegments (some : held ≠ []) :
    (Draft.ofText true true ['/'] (renderSegments (held.map Segment.written))).path =
      '/' :: renderSegments (held.map Segment.written) := by
  have cut : pieces (isSlash true) (renderSegments (held.map Segment.written)) = [] :: held.map Segment.written := by
    refine pieces_renderSegments (by decide) (by simpa using some) fun name mem c hc => ?_
    obtain ⟨s, _, rfl⟩ := List.mem_map.mp mem
    exact (s.survives hc).noSlash
  have first : ((Draft.addSegment true { path := ['/'], start := ['/'].length, onDrive := false } []).close
      true true).path = directoryText [[]] := by
    decide
  rw [ofText_eq _ fun c mem => (printed_renderSegments mem).2, cut]
  obtain ⟨s, more, rfl⟩ := List.exists_cons_of_ne_nil some
  rw [List.map_cons, Draft.addAll, ← List.map_cons, addAll_written some (List.cons_ne_nil [] []) first]
  · rfl
  · simp

theorem readFile_renderSegments (rooted : IsRooted held) :
    readFile ('/' :: '/' :: renderSegments (held.map Segment.written)) none =
      .ok (ofWritten (held.map Segment.written)) := by
  obtain ⟨first, more, split, _⟩ := id rooted
  have some : held ≠ [] := by simp [split]
  obtain ⟨rest, begins⟩ : ∃ rest, renderSegments (held.map Segment.written) = '/' :: rest := by
    rw [split]
    exact ⟨_, rfl⟩
  have seen : visible ('/' :: '/' :: renderSegments (held.map Segment.written)) =
      '/' :: '/' :: renderSegments (held.map Segment.written) := by
    apply visible_of_printed
    simp only [List.mem_cons]
    rintro c (rfl | rfl | mem)
    · decide
    · decide
    · exact (printed_renderSegments mem).1
  have file : finishFile noServer ['/'] (renderSegments (held.map Segment.written)) =
      ofWritten (held.map Segment.written) := by
    rw [finishFile, path_ofText_renderSegments some, fileNames_slash, rooted.fileNames_eq,
      finish_of_path _ _ fun c mem => (printed_renderSegments mem).2]
    rfl
  have server : fileAfterSlashes (renderSegments (held.map Segment.written)) =
      .ok (finishFile noServer ['/'] (renderSegments (held.map Segment.written))) := by
    rw [begins]
    rfl
  have next : dropFirst (dropFirst ('/' :: '/' :: renderSegments (held.map Segment.written))) =
      renderSegments (held.map Segment.written) := by
    rfl
  rw [readFile, seen]
  simp only
  rw [if_pos (by decide), if_pos (by rfl), next, server, file]

theorem parse_ofWritten (rooted : IsRooted held) :
    parse (toString (ofWritten (held.map Segment.written))) = .ok (ofWritten (held.map Segment.written)) := by
  have scheme (rest : List Char) : scheme? ("file:".toList ++ rest) = some (fileScheme, rest) := rfl
  have behind (rest : List Char) : (("file:".toList ++ rest).dropWhile (· ≠ ':')).drop 1 = rest := rfl
  have table : ("file:".toList ++ "//".toList).all (fun c => 0x20 < c.toNat) = true := by decide
  have printed : ∀ c ∈ (ofWritten (held.map Segment.written)).render, 0x20 < c.toNat := by
    rw [render_ofWritten, ← List.append_assoc]
    intro c mem
    rcases List.mem_append.mp mem with mem | mem
    · simpa using List.all_eq_true.mp table c mem
    · exact (printed_renderSegments mem).1
  have text : (toString (ofWritten (held.map Segment.written))).toList =
      (ofWritten (held.map Segment.written)).render := String.toList_ofList
  rw [parse, text, read]
  simp only [trim_of_printed printed, visible_of_printed printed]
  simp only [render_ofWritten, scheme, if_true, behind]
  exact readFile_renderSegments rooted

end

/-- A specifier that reads, as a reference, as the path that it is: it has no scheme, no character of it ends or leaves
the path or means another, it is not blank at its ends, and its segments can be entered from the names of a directory. -/
structure ReadsAsPath (names : List (List Char)) (specifier : List Char) : Prop where
  noScheme : scheme? specifier = none
  inPath : ∀ c ∈ specifier, endsPath c = false ∧ isIgnored c = false ∧ c ≠ '\\'
  printed : (∀ c ∈ specifier.head?, 0x20 < c.toNat) ∧ ∀ c ∈ specifier.getLast?, 0x20 < c.toNat
  unescaped : Percent.decode (Utf8.encode specifier) = Utf8.encode specifier
  noDrive : ∀ first ∈ (pieces (· = '/') specifier).head?, isDrive first = false
  enters : Enters names (pieces (· = '/') specifier)

instance (names : List (List Char)) (specifier : List Char) : Decidable (ReadsAsPath names specifier) :=
  decidable_of_iff
    (scheme? specifier = none ∧ specifier.all (fun c => !endsPath c && !isIgnored c && c ≠ '\\') = true ∧
      (specifier.head?.all (0x20 < ·.toNat) && specifier.getLast?.all (0x20 < ·.toNat)) = true ∧
      Percent.decode (Utf8.encode specifier) = Utf8.encode specifier ∧
      (∀ first ∈ (pieces (· = '/') specifier).head?, isDrive first = false) ∧
      Enters names (pieces (· = '/') specifier))
    ⟨fun ⟨a, b, c, d, e, f⟩ => ⟨a, by simpa [and_assoc] using b, by simpa [Option.all_eq_true] using c, d, e, f⟩,
      fun ⟨a, b, c, d, e, f⟩ => ⟨a, by simpa [and_assoc] using b, by simpa [Option.all_eq_true] using c, d, e, f⟩⟩

theorem mem_of_mem_pieces {specifier piece : List Char} (mem : piece ∈ pieces (· = '/') specifier) {c : Char}
    (inside : c ∈ piece) : c ≠ '/' ∧ c ∈ specifier := by
  have apart : c ≠ '/' := by simpa using not_separates_of_mem_pieces mem inside
  refine ⟨apart, ?_⟩
  rw [← intercalate_pieces '/' specifier, mem_intercalate apart]
  exact ⟨piece, mem, inside⟩

theorem unescaped_of_mem {parts : List (List Char)}
    (whole : Percent.decode (Utf8.encode (['/'].intercalate parts)) = Utf8.encode (['/'].intercalate parts))
    {part : List Char} (mem : part ∈ parts) : Percent.decode (Utf8.encode part) = Utf8.encode part := by
  induction parts with
  | nil => exact absurd mem List.not_mem_nil
  | cons first more ih =>
    cases more with
    | nil =>
      rw [List.mem_singleton.mp mem]
      simpa using whole
    | cons second more =>
      have split : Utf8.encode (['/'].intercalate (first :: second :: more)) =
          Utf8.encode first ++ 47 :: Utf8.encode (['/'].intercalate (second :: more)) := by
        rw [List.intercalate_cons_cons, Utf8.encode_append, Utf8.encode_append, List.append_assoc]
        rfl
      rw [split] at whole
      obtain ⟨here, behind⟩ := Percent.decode_eq_self (by decide) rfl whole
      rcases List.mem_cons.mp mem with rfl | mem
      · exact here
      · exact ih behind mem

namespace ReadsAsPath

variable {names : List (List Char)} {specifier : List Char} (reads : ReadsAsPath names specifier)

include reads

theorem isPlain {segment : List Char} (mem : segment ∈ pieces (· = '/') specifier) : IsPlain segment := by
  refine ⟨fun c hc => (reads.inPath c (mem_of_mem_pieces mem hc).2).2.1, fun hc => (mem_of_mem_pieces mem hc).1 rfl,
    fun hc => (reads.inPath _ (mem_of_mem_pieces mem hc).2).2.2 rfl, ?_⟩
  have whole := reads.unescaped
  rw [← intercalate_pieces '/' specifier] at whole
  exact unescaped_of_mem whole mem

theorem visible_eq : visible specifier = specifier := by
  rw [visible, List.filter_eq_self]
  intro c mem
  rw [(reads.inPath c mem).2.1]
  rfl

theorem trim_eq : trim specifier = specifier :=
  trim_of_ends reads.printed.1 reads.printed.2

theorem pieces_isSlash : pieces (isSlash true) specifier = pieces (· = '/') specifier := by
  refine pieces_congr fun c mem => ?_
  simp [isSlash, (reads.inPath c mem).2.2]

theorem startsWithDrive_eq_false : startsWithDrive specifier = false := by
  rw [Bool.eq_false_iff]
  intro starts
  obtain ⟨drive, third⟩ := Bool.and_eq_true_iff.mp starts
  obtain ⟨c, d, taken, letter, mark⟩ := isDrive_iff.mp drive
  obtain ⟨rest, split⟩ : ∃ rest, specifier = [c, d] ++ rest := ⟨specifier.drop 2, by rw [← taken, List.take_append_drop]⟩
  have free : ∀ x ∈ [c, d], decide (x = '/') = false := by
    intro x mem
    rw [decide_eq_false_iff_not]
    rintro rfl
    simp only [List.mem_cons, List.not_mem_nil, or_false] at mem
    rcases mem with rfl | rfl
    · exact absurd letter (by decide)
    · exact absurd mark (by decide)
  -- A slash comes next, or nothing, so the drive is a segment of its own.
  have cut : ∃ more, pieces (· = '/') specifier = [c, d] :: more := by
    rw [split, pieces_append_of_not free]
    cases rest with
    | nil => exact ⟨[], rfl⟩
    | cons e rest =>
      have inPath := reads.inPath e (by simp [split])
      have slash : e = '/' := by simpa [split, inPath.1, isSlash, inPath.2.2] using third
      exact ⟨pieces (· = '/') rest, by simp [pieces, slash]⟩
  obtain ⟨more, first⟩ := cut
  rw [taken] at drive
  exact absurd drive (by simp [reads.noDrive [c, d] (by simp [first])])

theorem read_eq (some : specifier ≠ []) (relative : specifier.head? ≠ .some '/') (base : List (List Char)) :
    join (ofWritten base) (String.ofList specifier) =
      .ok (finishFile noServer (withoutLast true (renderSegments base)) specifier) := by
  obtain ⟨c, rest, rfl⟩ := List.exists_cons_of_ne_nil some
  obtain ⟨ends, _, noBackslash⟩ := reads.inPath c List.mem_cons_self
  obtain ⟨noQuery, noFragment⟩ : c ≠ '?' ∧ c ≠ '#' := by simpa [endsPath] using ends
  have noSlash : isSlash true c = false := by simpa [isSlash, noBackslash] using relative
  have drive := reads.startsWithDrive_eq_false
  have seen := reads.visible_eq
  have file : (ofWritten base).isFile = true := rfl
  have readsFile : readFile (c :: rest) (Option.some (ofWritten base)) =
      .ok (finishFile noServer (withoutLast true (renderSegments base)) (c :: rest)) := by
    simp only [readFile, seen]
    rw [if_neg (by simp [noSlash]), if_neg noFragment, if_neg noQuery, if_neg (by simp [drive])]
    rfl
  rw [join, String.toList_ofList, read]
  simp only [reads.trim_eq, seen, reads.noScheme, file, if_true, readsFile]
  split
  next same => exact absurd (List.cons.inj same).1 noFragment
  next structured _ => cases structured
  next => rfl

theorem exists_join {held : List Segment} (entered : held.map Segment.raw = names) (file : Segment)
    (noDrive : isPlainDrive file.raw = false) (some : specifier ≠ []) (relative : specifier.head? ≠ .some '/') :
    ∃ kept : List Segment, IsRooted kept ∧
      join (ofWritten ((held ++ [file]).map Segment.written)) (String.ofList specifier) =
        .ok (ofWritten (kept.map Segment.written)) ∧
      (kept.map Segment.raw).filter (· ≠ []) = ((pieces (· = '/') specifier).foldl enter names).filter (· ≠ []) := by
  have inPath : ∀ c ∈ specifier, endsPath c = false := fun c mem => (reads.inPath c mem).1
  have base : withoutLast true (renderSegments ((held ++ [file]).map Segment.written)) =
      directoryText (held.map Segment.written) := by
    rw [List.map_append, List.map_singleton, renderSegments_concat,
      withoutLast_append _ file.written_free (file.isPlainDrive_written noDrive)]
  have enters := reads.enters
  rw [← entered] at enters
  obtain ⟨held', raws, reached⟩ := exists_addAll (pieces_ne_nil _ specifier)
    (d := { path := directoryText (held.map Segment.written), start := (directoryText (held.map Segment.written)).length,
            onDrive := false }) rfl (fun s mem => reads.isPlain mem) enters
  -- The path of a directory is that of an empty name in it.
  obtain ⟨ended, path, left⟩ : ∃ ended : List Segment, (Draft.ofText true true (directoryText (held.map Segment.written))
      specifier).path = renderSegments (ended.map Segment.written) ∧
        (ended.map Segment.raw).filter (· ≠ []) = (held'.map Segment.raw).filter (· ≠ []) := by
    rw [ofText_eq _ inPath, reads.pieces_isSlash]
    rcases reached with directory | file
    · refine ⟨held' ++ [.empty], ?_, by simp [Segment.empty]⟩
      rw [directory, List.map_append, List.map_singleton, renderSegments_concat]
      exact (List.append_nil _).symm
    · exact ⟨held', file, rfl⟩
  obtain ⟨kept, rooted, names', kept_raws⟩ := exists_fileNames ended
  refine ⟨kept, rooted, ?_, ?_⟩
  · rw [reads.read_eq some relative, base, finishFile, path, names', finish_of_path _ _ inPath]
    rfl
  · rw [kept_raws, left, raws, entered]

end ReadsAsPath

end Url

end StylesheetImports
