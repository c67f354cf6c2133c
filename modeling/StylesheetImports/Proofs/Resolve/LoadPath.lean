import StylesheetImports.Build.Load
import StylesheetImports.Proofs.Path.Names
import StylesheetImports.Proofs.Resolve.Spot
import StylesheetImports.Proofs.Url.Joining
import StylesheetImports.Resolve.LoadPath

set_option autoImplicit false

namespace StylesheetImports

open Component

theorem filterMap_encode {raws : List (List Char)} (noDots : ∀ raw ∈ raws, raw ≠ ['.'] ∧ raw ≠ ['.', '.']) :
    (raws.map Utf8.encode).filterMap ofSegment? = (raws.filter (· ≠ [])).map ofName := by
  induction raws with
  | nil => rfl
  | cons raw raws ih =>
    obtain ⟨noDot, noParent⟩ := noDots raw List.mem_cons_self
    have later := ih fun other mem => noDots other (List.mem_cons_of_mem raw mem)
    by_cases empty : raw = []
    · rw [empty, List.map_cons, List.filter_cons_of_neg (by simp), List.filterMap_cons_none (by rfl), later]
    · rw [List.map_cons, List.filter_cons_of_pos (by simpa using empty),
        List.filterMap_cons_some (ofSegment?_encode ⟨empty, noDot, noParent⟩), later, List.map_cons]

def stackOf (names : List (List Char)) : List Component :=
  ((names.filter (· ≠ [])).map ofName).reverse ++ [.root]

theorem push_enter {names : List (List Char)} {segment : List Char}
    (up : segment = ['.', '.'] -> ∀ last ∈ names.getLast?, last ≠ []) :
    (ofSegment? (Utf8.encode segment)).toList.foldl push (stackOf names) = stackOf (Url.enter names segment) := by
  by_cases empty : segment = []
  · subst empty
    have idle : ofSegment? (Utf8.encode []) = none := rfl
    rw [idle]
    simp [Url.enter, stackOf]
  by_cases here : segment = ['.']
  · subst here
    rfl
  by_cases parent : segment = ['.', '.']
  · have step : ofSegment? (Utf8.encode segment) = some .parent := by rw [parent]; rfl
    rw [step, Url.enter, if_neg here, if_pos parent]
    rcases List.eq_nil_or_concat names with rfl | ⟨before, last, rfl⟩
    · rfl
    · have some := up parent last (by simp)
      simp [stackOf, some, push, ofName]
  · rw [ofSegment?_encode ⟨empty, here, parent⟩, Url.enter, if_neg here, if_neg parent]
    simp [stackOf, empty, push_name, ofName]

theorem foldl_push_enter {names segments : List (List Char)} (enters : Url.Enters names segments) :
    ((segments.map Utf8.encode).filterMap ofSegment?).foldl push (stackOf names) =
      stackOf (segments.foldl Url.enter names) := by
  induction segments generalizing names with
  | nil => rfl
  | cons segment segments ih =>
    obtain ⟨up, _, tail⟩ := Url.enters_cons.mp enters
    have step := push_enter fun same last mem => (up same last mem).1
    have split : ((segment :: segments).map Utf8.encode).filterMap ofSegment? =
        (ofSegment? (Utf8.encode segment)).toList ++ (segments.map Utf8.encode).filterMap ofSegment? := by
      cases read : ofSegment? (Utf8.encode segment) <;> simp [read]
    rw [split, List.foldl_append, step, ih tail]
    rfl

namespace Url

theorem exists_toPath?_ofWritten {held : List Segment} (rooted : IsRooted held) :
    ∃ p, (ofWritten (held.map Segment.written)).toPath? = some p ∧ p.isAbsolute = true ∧
      p.components = .root :: ((held.map Segment.raw).filter (· ≠ [])).map ofName := by
  obtain ⟨first, more, split, _⟩ := rooted
  have some : (held.map Segment.raw).map Utf8.encode ≠ [] := by simp [split]
  have bytes : (held.map Segment.written).flatMap (fun name => slash :: Percent.decode (Utf8.encode name)) =
      slash :: joinSegments ((held.map Segment.raw).map Utf8.encode) := by
    rw [← flatMap_slash some, List.flatMap_map, List.map_map, List.flatMap_map]
    refine congrArg (List.flatMap · held) (funext fun s => ?_)
    rw [s.read]
    rfl
  have absolute : ({ bytes := slash :: joinSegments ((held.map Segment.raw).map Utf8.encode) } : Path).isAbsolute = true :=
    rfl
  obtain ⟨closed, same⟩ := components_closeDrive absolute
  refine ⟨_, ?_, closed, ?_⟩
  · rw [← bytes]
    rfl
  · have free : ∀ segment ∈ (held.map Segment.raw).map Utf8.encode, slash ∉ segment := by
      intro segment mem
      obtain ⟨raw, named, rfl⟩ := List.mem_map.mp mem
      obtain ⟨s, _, rfl⟩ := List.mem_map.mp named
      exact slash_not_mem_encode s.free
    rw [same, Path.components_of_absolute absolute, stepsOf_slash, Path.stepsOf_joinSegments_free free, filterMap_encode]
    intro raw mem
    obtain ⟨s, _, rfl⟩ := List.mem_map.mp mem
    exact s.noDots

end Url

namespace Resolver

theorem spot?_eq {u : Url} {p : Path} (there : u.toPath? = some p) :
    spot? u = p.parent?.bind fun dir => p.fileNameText?.map fun name => (dir.components, name) := by
  simp only [spot?, Place.ofUrl?, there, Option.bind_eq_bind, Option.bind_some]
  cases p.parent? with
  | none => rfl
  | some dir => cases p.fileNameText? <;> rfl

theorem spot?_congr {u v : Url} {p q : Path} (there : u.toPath? = some p) (there' : v.toPath? = some q)
    (absolute : p.isAbsolute = true) (absolute' : q.isAbsolute = true) (same : p.components = q.components) :
    spot? u = spot? v := by
  have names : p.fileName? = q.fileName? := by rw [Path.fileName?, Path.fileName?, same]
  rw [spot?_eq there, spot?_eq there', Path.fileNameText?, Path.fileNameText?, ← names]
  cases named : p.fileName? with
  | none => simp
  | some name =>
    obtain ⟨dir, above⟩ := Path.exists_parent? absolute named
    obtain ⟨dir', above'⟩ := Path.exists_parent? absolute' (names ▸ named)
    obtain ⟨_, c, split⟩ := Path.components_of_parent? absolute above
    obtain ⟨_, d, split'⟩ := Path.components_of_parent? absolute' above'
    rw [split, split'] at same
    simp only [above, above', Option.bind_some, (List.append_inj' same rfl).1]

/-- The location that a specifier names as a reference of the document at `base`. -/
def reference? (base : Url) (specifier : String) : Option Url :=
  match base.join specifier with
  | .ok location => Url.ofSpecifier? (toString location)
  | .error _ => none

-- Importers that resolve locations only.
def locating (r : Rebaser) : Importers :=
  { resolvers := [relative], rebaser := r }

section

variable {specifier : String} (unlocated : Url.ofSpecifier? specifier = none) (view : View) (fromImport : Bool)

include unlocated

theorem eval_canonicalizeFrom (r : Rebaser) (base : Url) (unread : ∀ u, Url.parse specifier ≠ .ok u) :
    ((locating r).canonicalizeFrom base specifier fromImport).eval view =
      (resolveAt (reference? base specifier) fromImport).eval view := by
  have alone (text : String) : ((locating r).canonicalize text fromImport).eval view =
      (resolveAt (Url.ofSpecifier? text) fromImport).eval view := by
    rw [Importers.canonicalize, chain, locating, List.map_singleton, eval_first_cons, relative, resolveAt]
    cases Url.ofSpecifier? text <;> exact Resolution.orElse_absent _
  cases read : Url.parse specifier with
  | ok u => exact absurd read (unread u)
  | error failure =>
    have nothing := alone specifier
    rw [unlocated] at nothing
    rw [Importers.canonicalizeFrom, reference?, unlocated, read]
    cases base.join specifier with
    | error _ => exact nothing
    | ok joined =>
      simp only [eval_first_cons, alone, unlocated]
      exact Resolution.orElse_absent _

theorem eval_loadPaths (dir : Path) : (loadPaths [dir] specifier fromImport).eval view =
    (resolveAt (Url.ofPath? (dir.join specifier)) fromImport).eval view := by
  rw [loadPaths, unlocated, List.map_singleton]
  simp only [eval_first_cons]
  rw [below, resolveAt]
  cases Url.ofPath? (dir.join specifier) <;> exact Resolution.orElse_absent _

end

theorem exists_held {names : List (List Char)} (ordinary : ∀ n ∈ names, IsOrdinary n ∧ '/' ∉ n) :
    ∃ held : List Url.Segment, held.map Url.Segment.raw = names ∧
      held.map Url.Segment.written = Url.encodeNames (names.map ofName) := by
  induction names with
  | nil => exact ⟨[], rfl, rfl⟩
  | cons name names ih =>
    obtain ⟨⟨_, noDots⟩, free⟩ := ordinary name List.mem_cons_self
    obtain ⟨held, raws, written⟩ := ih fun n mem => ordinary n (List.mem_cons_of_mem name mem)
    refine ⟨.ofFileName name free noDots :: held, by rw [List.map_cons, raws]; rfl, ?_⟩
    rw [List.map_cons, written]
    rfl

section

variable {dir : Path} (absolute : dir.isAbsolute = true) (normal : dir.normalize = dir)
  (text : ∃ t, dir.bytes = Utf8.encode t) {file specifier : String}

include absolute normal text

theorem exists_written (name : IsName (Path.ofString file).bytes) {base : Url}
    (located : Url.ofPath? (dir.join file) = some base) :
    ∃ (held : List Url.Segment) (last : Url.Segment), held.map Url.Segment.raw = dir.names ∧ last.raw = file.toList ∧
      base = Url.ofWritten ((held ++ [last]).map Url.Segment.written) := by
  obtain ⟨steps, ordinary⟩ := Path.components_of_names absolute normal text
  obtain ⟨held, raws, written⟩ := exists_held ordinary
  obtain ⟨⟨_, noDots⟩, free⟩ := isOrdinary_of_isSegment (name : (ofName file.toList).IsSegment)
  refine ⟨held, .ofFileName file.toList free noDots, raws, rfl, ?_⟩
  rw [Url.ofPath?, if_pos (Path.isAbsolute_join absolute _), Path.components_normalize,
    Path.fold_join _ name, Path.fold_components normal, steps, Option.some.injEq] at located
  rw [← located, List.map_append, written, List.cons_append, List.drop_one, List.tail_cons, Url.encodeNames,
    List.map_append, Url.ofSegments, if_neg (by simp)]
  rfl

theorem components_normalize_join (relative : (Path.ofString specifier).isAbsolute = false)
    (enters : Url.Enters dir.names (pieces (· = '/') specifier.toList)) :
    (dir.join specifier).normalize.components = .root ::
      (((pieces (· = '/') specifier.toList).foldl Url.enter dir.names).filter (· ≠ [])).map ofName := by
  obtain ⟨steps, ordinary⟩ := Path.components_of_names absolute normal text
  have ascii : '/'.toNat < 0x80 := by decide
  have cut : stepsOf (Path.ofString specifier).bytes =
      ((pieces (· = '/') specifier.toList).map Utf8.encode).filterMap ofSegment? :=
    congrArg (List.filterMap ofSegment?) (Utf8.pieces_encode ascii specifier.toList)
  have whole : dir.names.filter (· ≠ []) = dir.names := by
    rw [List.filter_eq_self]
    exact fun n mem => by simpa using (ordinary n mem).1.1
  have stack : dir.components.foldl push [] = stackOf dir.names := by
    rw [← List.reverse_reverse (dir.components.foldl push []), ← fold, Path.fold_components normal, steps,
      stackOf, whole, List.reverse_cons]
  rw [Path.components_normalize, Path.components_join absolute relative, fold,
    List.foldl_append, stack, cut, foldl_push_enter enters, stackOf]
  simp

theorem spot?_reference? (name : IsName (Path.ofString file).bytes) {base : Url}
    (located : Url.ofPath? (dir.join file) = some base) (noDrive : Url.isPlainDrive file.toList = false)
    (some : specifier ≠ "") (relative : (Path.ofString specifier).isAbsolute = false)
    (reads : Url.ReadsAsPath dir.names specifier.toList) :
    (reference? base specifier).bind spot? = (Url.ofPath? (dir.join specifier)).bind spot? := by
  obtain ⟨held, last, raws, file_, rfl⟩ := exists_written absolute normal text name located
  have noSlash : specifier.toList.head? ≠ .some '/' := by
    intro first
    obtain ⟨rest, split⟩ := List.head?_eq_some_iff.mp first
    have begins : (Path.ofString specifier).bytes = slash :: Utf8.encode rest := by
      rw [Path.ofString, split]
      rfl
    simp [Path.isAbsolute, begins] at relative
  obtain ⟨kept, rooted, joined, left⟩ := reads.exists_join raws last (by rw [file_]; exact noDrive)
    (fun empty => some (String.toList_inj.mp empty)) noSlash
  rw [String.ofList_toList] at joined
  have named : reference? (Url.ofWritten ((held ++ [last]).map Url.Segment.written)) specifier =
      .some (Url.ofWritten (kept.map Url.Segment.written)) := by
    rw [reference?, joined]
    simp only [Url.ofSpecifier?, Url.parse_ofWritten rooted]
    rfl
  obtain ⟨p, there, absolute', steps⟩ := Url.exists_toPath?_ofWritten rooted
  obtain ⟨v, made, back⟩ := Url.exists_ofPath? (Path.isAbsolute_join absolute (Path.ofString specifier))
  obtain ⟨closed, same⟩ := Url.components_closeDrive
    (Path.isAbsolute_normalize (Path.isAbsolute_join absolute (Path.ofString specifier)))
  rw [named, made, Option.bind_some, Option.bind_some]
  refine spot?_congr there back absolute' closed ?_
  rw [steps, left, same]
  exact (components_normalize_join absolute normal text relative reads.enters).symm

/-- A specifier is found alike next to a stylesheet and below the directory of that stylesheet, in every file system,
exactly when the reference and the path that it is lead to one spot; and they do when it reads as a path. -/
theorem loadPaths_alike (r : Rebaser) (name : IsName (Path.ofString file).bytes) {base : Url}
    (located : Url.ofPath? (dir.join file) = some base) (some : specifier ≠ "")
    (relative : (Path.ofString specifier).isAbsolute = false) (unread : ∀ u, Url.parse specifier ≠ .ok u) :
    let beside (index : Path -> Option Directory) (text : Path -> Option String) (fromImport : Bool) :=
      ((locating r).canonicalizeFrom base specifier fromImport).eval (.ofIndex index text)
    let below (index : Path -> Option Directory) (text : Path -> Option String) (fromImport : Bool) :=
      (loadPaths [dir] specifier fromImport).eval (.ofIndex index text)
    ((∀ index text fromImport, (beside index text fromImport).Alike (below index text fromImport)) ↔
        (reference? base specifier).bind spot? = (Url.ofPath? (dir.join specifier)).bind spot?) ∧
      (Url.isPlainDrive file.toList = false -> Url.ReadsAsPath dir.names specifier.toList ->
        ∀ index text fromImport, (beside index text fromImport).Alike (below index text fromImport)) := by
  have unlocated : Url.ofSpecifier? specifier = none := by
    have noPath : Url.ofPath? specifier = none := if_neg (by simp [relative])
    rw [Url.ofSpecifier?]
    cases read : Url.parse specifier with
    | ok u => exact absurd read (unread u)
    | error _ => exact noPath
  intro beside below
  have answers (index : Path -> Option Directory) (text : Path -> Option String) (fromImport : Bool) :
      beside index text fromImport =
          (resolveAt (reference? base specifier) fromImport).eval (.ofIndex index text) ∧
        below index text fromImport =
          (resolveAt (Url.ofPath? (dir.join specifier)) fromImport).eval (.ofIndex index text) :=
    ⟨eval_canonicalizeFrom unlocated _ fromImport r base unread, eval_loadPaths unlocated _ fromImport dir⟩
  have exact_ : (∀ index text fromImport, (beside index text fromImport).Alike (below index text fromImport)) ↔
      (reference? base specifier).bind spot? = (Url.ofPath? (dir.join specifier)).bind spot? := by
    rw [← alike_iff]
    simp only [answers]
  exact ⟨exact_, fun noDrive reads =>
    exact_.mpr (spot?_reference? absolute normal text name located noDrive some relative reads)⟩

end

theorem loadPaths_alike_dotted :
    (Path.ofString "/d").isAbsolute = true ∧ (Path.ofString "/d").normalize = "/d" ∧
      Url.ReadsAsPath (Path.ofString "/d").names "./x y/..//é%.css".toList ∧
        ∀ index text fromImport,
          (((locating (Rebaser.anchored "/d" [] false)).canonicalizeFrom (Url.ofSegments ["d".toList, "f.scss".toList])
              "./x y/..//é%.css" fromImport).eval (.ofIndex index text)).Alike
            ((loadPaths ["/d"] "./x y/..//é%.css" fromImport).eval (.ofIndex index text)) := by
  have absolute : (Path.ofString "/d").isAbsolute = true := by decide
  have normal : (Path.ofString "/d").normalize = "/d" := by decide +kernel
  have reads : Url.ReadsAsPath (Path.ofString "/d").names "./x y/..//é%.css".toList := by decide +kernel
  have name : IsName (Path.ofString "f.scss").bytes := ⟨by decide, by decide⟩
  have unread (u : Url) : Url.parse "./x y/..//é%.css" ≠ .ok u := by
    have failed : Url.parse "./x y/..//é%.css" = .error .relativeWithoutBase := by decide +kernel
    simp [failed]
  refine ⟨absolute, normal, reads, ?_⟩
  exact (loadPaths_alike absolute normal ⟨"/d".toList, rfl⟩ (Rebaser.anchored "/d" [] false) name (by decide +kernel)
    (by decide) (by decide) unread).2 (by decide) reads

-- A fragment is no part of what a reference names, but it is part of a path.
theorem loadPaths_fragment :
    Url.ofPath? (Path.join "/d" "f.scss") = some (Url.ofSegments ["d".toList, "f.scss".toList]) ∧
      (Path.ofString "a#b").isAbsolute = false ∧ Url.parse "a#b" = .error .relativeWithoutBase ∧
      let view := viewOf "/d" ["a.scss"]
      ((locating (Rebaser.anchored "/d" [] false)).canonicalizeFrom (Url.ofSegments ["d".toList, "f.scss".toList]) "a#b"
          false).eval view = .found (Url.ofSegments ["d".toList, "a.scss".toList]) ∧
        (loadPaths ["/d"] "a#b" false).eval view = .absent := by
  refine ⟨?_, ?_, ?_, ?_, ?_⟩ <;> decide +kernel

end Resolver

end StylesheetImports
