import StylesheetImports.Proofs.Rebase.Route

set_option autoImplicit false

namespace StylesheetImports

open Utf8 Lexeme

namespace Component

theorem climbsAbove_append_names (names : List Bytes) (depth : Nat) (steps : List Component) :
    climbsAbove depth (steps ++ names.map .name) = climbsAbove depth steps := by
  induction steps generalizing depth with
  | nil =>
    induction names generalizing depth with
    | nil => rfl
    | cons n names ih => exact ih (depth + 1)
  | cons c steps ih =>
    cases c with
    | root => simp [climbsAbove, ih]
    | current => simp [climbsAbove, ih]
    | parent => cases depth <;> simp [climbsAbove, ih]
    | name n => simp [climbsAbove, ih]

end Component

namespace Reference

open Component

def segmentsOf (text : List Char) : List (List Char) :=
  pieces (· = '/') text

def stepsOfText (segments : List (List Char)) : List Component :=
  segments.filterMap fun segment => ofSegment? (encode segment)

theorem stepsOfText_ordinary {names : List (List Char)} (ordinary : ∀ n ∈ names, IsOrdinary n) :
    stepsOfText names = (names.map encode).map .name := by
  induction names with
  | nil => rfl
  | cons n names ih =>
    obtain ⟨here, later⟩ := List.forall_mem_cons.mp ordinary
    rw [stepsOfText, List.filterMap_cons, ofSegment?_encode here]
    exact congrArg (ofName n :: ·) (ih later)

theorem components_join_text {dir : Path} (absolute : dir.isAbsolute = true) {value : List Char}
    (relative : value.head? ≠ some '/') :
    (dir.join { bytes := encode value }).components = dir.components ++ stepsOfText (segmentsOf value) := by
  have ascii : '/'.toNat < 0x80 := by decide
  have cut : segments (encode value) = (segmentsOf value).map encode := pieces_encode ascii value
  rw [Path.components_join absolute (Path.isAbsolute_text relative), stepsOf, cut, List.filterMap_map]
  rfl

theorem fold_join_text {dir : Path} (absolute : dir.isAbsolute = true) {value : List Char}
    (relative : value.head? ≠ some '/') {init later : List (List Char)} {name : List Char}
    (cut : segmentsOf value = init ++ name :: later) (named : IsOrdinary name) :
    (dir.join { bytes := encode value }).components =
        dir.components ++ stepsOfText init ++ ofName name :: stepsOfText later ∧
      ((∀ n ∈ later, IsOrdinary n) -> fold (dir.join { bytes := encode value }).components =
        fold (dir.components ++ stepsOfText init) ++ ofName name :: later.map ofName) := by
  have steps : (dir.join { bytes := encode value }).components =
      dir.components ++ stepsOfText init ++ ofName name :: stepsOfText later := by
    rw [components_join_text absolute relative, cut, stepsOfText, List.filterMap_append, List.filterMap_cons,
      ofSegment?_encode named, List.append_assoc]
    rfl
  refine ⟨steps, fun ordinary => ?_⟩
  rw [steps, stepsOfText_ordinary ordinary, fold_append, List.foldl_cons, ofName, push_name, foldl_push_map_name]
  simp [ofName]

theorem ordinary_of_mark (last : List Char) {first : List Char}
    (marked : first.head? = some '?' ∨ first.head? = some '#') : IsOrdinary (last ++ first) := by
  obtain ⟨mark, rest, rfl, isMark⟩ : ∃ mark rest, first = mark :: rest ∧ mark ≠ '.' := by
    rcases marked with head | head
    · obtain ⟨rest, rfl⟩ := List.head?_eq_some_iff.mp head
      exact ⟨_, rest, rfl, by decide⟩
    · obtain ⟨rest, rfl⟩ := List.head?_eq_some_iff.mp head
      exact ⟨_, rest, rfl, by decide⟩
  have apart (dots : List Char) (only : ∀ c ∈ dots, c = '.') : last ++ mark :: rest ≠ dots := by
    rintro rfl
    exact isMark (only mark (List.mem_append_right _ List.mem_cons_self))
  exact ⟨apart [] (by simp), apart ['.'] (by simp), apart ['.', '.'] (by simp)⟩

theorem segmentsOf_plain {parts : List (List Char)} (each : ∀ part ∈ parts, part ≠ [] ∧ '/' ∉ part) :
    segmentsOf (plain (['/'].intercalate parts)) = if parts = [] then [['.']] else parts := by
  cases parts with
  | nil => decide
  | cons first more =>
    have some : first ≠ [] := (each first List.mem_cons_self).1
    rw [plain, if_neg (intercalate_ne_nil some), if_neg (by simp), segmentsOf]
    exact pieces_intercalate '/' (by simp) fun part mem => (each part mem).2

theorem plain_intercalate (before : List (List Char)) {last : List Char} (first : List Char) (more : List (List Char))
    (some : last ≠ []) :
    plain (['/'].intercalate (before ++ (last ++ first) :: more)) =
      plain (['/'].intercalate (before ++ [last])) ++ ['/'].intercalate (first :: more) := by
  have written := intercalate_concat_ne_nil '/' before some
  rw [intercalate_append, plain, plain, if_neg written, if_neg (List.append_ne_nil_of_left_ne_nil written _)]

theorem mem_of_append_eq_replicate {dots : List Char} {up : Nat} {a b names : List (List Char)} {x : List Char}
    (same : a ++ x :: b = List.replicate up dots ++ names) (apart : x ≠ dots) : ∀ y ∈ b, y ∈ names := by
  induction up generalizing a with
  | zero =>
    intro y mem
    rw [List.replicate_zero, List.nil_append] at same
    rw [← same]
    exact List.mem_append_right _ (List.mem_cons_of_mem _ mem)
  | succ up ih =>
    rw [List.replicate_succ, List.cons_append] at same
    cases a with
    | nil => exact absurd (List.cons.inj same).1 apart
    | cons first a => exact ih (List.cons.inj same).2

theorem segmentsOf_relativeTo {target base : Path} (ht : target.isAbsolute = true) (hb : base.isAbsolute = true)
    (text : ∃ t, target.bytes = encode t) :
    ∃ up, (∀ n ∈ base.below target, IsOrdinary n) ∧
      segmentsOf (plain (target.relativeTo base).toSlash) =
        (let parts := List.replicate up ['.', '.'] ++ base.below target; if parts = [] then [['.']] else parts) ∧
      (segmentsOf (plain (target.relativeTo base).toSlash)).length =
        max 1 (route (fold base.components) (fold target.components)).length := by
  obtain ⟨up, climb, _, ordinary⟩ := Path.exists_climb ht hb text
  have each : ∀ part ∈ List.replicate up ['.', '.'] ++ base.below target, part ≠ [] ∧ '/' ∉ part := by
    intro part mem
    rcases List.mem_append.mp mem with parent | name
    · rw [List.eq_of_mem_replicate parent]
      decide
    · exact ⟨(ordinary part name).1.1, (ordinary part name).2⟩
  have cut := segmentsOf_plain each
  rw [← climb, ← Path.toSlash_relativeTo ht hb] at cut
  refine ⟨up, fun n mem => (ordinary n mem).1, by rw [cut, climb], ?_⟩
  rw [cut, ← List.length_map (f := shown)]
  split
  next empty => rw [empty]; rfl
  next some =>
    have := List.length_pos_iff.mpr some
    omega

theorem not_prefix_of_length {before here : List Component} {step other : Component} (later : List Component)
    (apart : step ≠ other)
    (length : max 1 (route here (before ++ other :: later)).length =
      max 1 (route here (before ++ [step])).length + later.length) :
    ¬before ++ [step] <+: here ∧ ¬before ++ [other] <+: here := by
  have empty : ([] : List Component).length = 0 := rfl
  constructor
  · intro within
    obtain ⟨common, _, long, short⟩ := length_route_within within []
    have whole := length_route_beside ((List.prefix_append before [step]).trans within)
      (not_prefix_of_ne within apart) later
    -- One step too many is written for the suffix: that of the name, which is not written without it.
    rw [short, whole, empty] at length
    omega
  · intro within
    obtain ⟨common, fits, long, whole⟩ := length_route_within within later
    have short := length_route_beside ((List.prefix_append before [other]).trans within)
      (not_prefix_of_ne within apart.symm) []
    rw [whole, short, empty] at length
    omega

theorem rebase?_of_unskipped {value : List Char} {fileDir entryDir : Path} (unskipped : isSkipped value = false)
    (low : (fileDir.join { bytes := encode value }).climbsAboveStart = false) :
    rebase? value fileDir entryDir =
      some (written ((fileDir.join { bytes := encode value }).relativeTo entryDir).toSlash) := by
  unfold rebase? written
  rw [if_neg (by simp [unskipped])]
  simp only [low, Bool.false_eq_true, if_false]
  split
  next empty => rw [if_pos empty]
  next some => rw [if_neg some]

theorem head?_ne_slash {value more : List Char} (unskipped : isSkipped value = false) :
    (value ++ more).head? ≠ some '/' := by
  cases value with
  | nil => simp [isSkipped] at unskipped
  | cons c value =>
    rintro root
    rw [List.cons_append, List.head?_cons, Option.some.injEq] at root
    simp [isSkipped, root] at unskipped

theorem ordinary_of_plain_append {target base : Path} (ht : target.isAbsolute = true) (hb : base.isAbsolute = true)
    (text : ∃ t, target.bytes = encode t) {init more : List (List Char)} {mixed : List Char} (mixed_ : IsOrdinary mixed)
    (cut : segmentsOf (plain (target.relativeTo base).toSlash) = init ++ mixed :: more) : ∀ n ∈ more, IsOrdinary n := by
  obtain ⟨up, ordinary, parts, _⟩ := segmentsOf_relativeTo ht hb text
  rw [cut] at parts
  by_cases empty : List.replicate up ['.', '.'] ++ base.below target = []
  next =>
    -- The dot of an empty path is no name.
    simp only [if_pos empty] at parts
    have mem : mixed ∈ [['.']] := parts ▸ List.mem_append_right _ List.mem_cons_self
    exact absurd (List.mem_singleton.mp mem) mixed_.2.1
  next =>
    simp only [if_neg empty] at parts
    exact fun n mem => ordinary n (mem_of_append_eq_replicate parts mixed_.2.2 n mem)

theorem exists_segmentsOf (text : List Char) : ∃ more, segmentsOf text = text.takeWhile (· ≠ '/') :: more := by
  simpa [segmentsOf] using exists_pieces (· = '/') text

/-- Where a reference `p` leads, and where it leads with a suffix behind its last name. Both ways go through the
directory `before`; there the first segment of the suffix goes on the name. -/
structure Ways (dir : Path) (p t : List Char) (before : List Component) (name first : List Char)
    (more : List (List Char)) : Prop where
  cut : segmentsOf t = first :: more
  named : IsOrdinary name
  marked : first.head? = some '?' ∨ first.head? = some '#'
  here : fold (dir.join { bytes := encode p }).components = before ++ [ofName name]
  beside : fold (dir.join { bytes := encode (p ++ first) }).components = before ++ [ofName (name ++ first)]
  there : (∀ n ∈ more, IsOrdinary n) ->
    fold (dir.join { bytes := encode (p ++ t) }).components = before ++ ofName (name ++ first) :: more.map ofName
  climbs : (∀ n ∈ more, IsOrdinary n) ->
    (dir.join { bytes := encode (p ++ t) }).climbsAboveStart = (dir.join { bytes := encode p }).climbsAboveStart

theorem exists_ways {dir : Path} {p t name : List Char} (absolute : dir.isAbsolute = true)
    (last : (segmentsOf p).getLast? = some name) (named : IsOrdinary name)
    (marked : t.head? = some '?' ∨ t.head? = some '#') (unskipped : isSkipped p = false) :
    ∃ before more, Ways dir p t before name (t.takeWhile (· ≠ '/')) more := by
  obtain ⟨init, cut⟩ := List.getLast?_eq_some_iff.mp last
  obtain ⟨more, cutSuffix⟩ := exists_segmentsOf t
  have firstMarked : (t.takeWhile (· ≠ '/')).head? = some '?' ∨ (t.takeWhile (· ≠ '/')).head? = some '#' := by
    rcases marked with head | head <;>
      obtain ⟨rest, rfl⟩ := List.head?_eq_some_iff.mp head <;> simp
  have free : ∀ c ∈ t.takeWhile (· ≠ '/'), decide (c = '/') = false := by
    intro c mem
    simpa using List.mem_takeWhile_imp mem
  generalize t.takeWhile (· ≠ '/') = first at cutSuffix firstMarked free
  have alone : segmentsOf first = [first] := pieces_of_not free
  have mixed := ordinary_of_mark name firstMarked
  have relative (suffix : List Char) : (p ++ suffix).head? ≠ some '/' := head?_ne_slash unskipped
  obtain ⟨steps, here⟩ := fold_join_text absolute (by simpa using relative []) cut named
  obtain ⟨steps', there⟩ := fold_join_text absolute (relative t) (pieces_append cut cutSuffix) mixed
  have beside := (fold_join_text absolute (relative first) (pieces_append cut alone) mixed).2 (by simp)
  refine ⟨fold (dir.components ++ stepsOfText init), more, cutSuffix, named, firstMarked, here (by simp), beside, there,
    ?_⟩
  intro later
  have one := climbsAbove_append_names [encode name] 0 (dir.components ++ stepsOfText init)
  have all := climbsAbove_append_names (encode (name ++ first) :: more.map encode) 0
    (dir.components ++ stepsOfText init)
  rw [Path.climbsAboveStart, Path.climbsAboveStart, steps, steps', stepsOfText_ordinary later]
  exact all.trans one.symm

namespace Ways

variable {dir entryDir : Path} {p t name first : List Char} {before : List Component} {more : List (List Char)}

theorem ofName_ne_ofName_append (w : Ways dir p t before name first more) : ofName name ≠ ofName (name ++ first) := by
  intro same
  have marked := w.marked
  rw [List.self_eq_append_right.mp (ofName_injective same)] at marked
  simp at marked

theorem intercalate_first_more (w : Ways dir p t before name first more) : ['/'].intercalate (first :: more) = t := by
  rw [← w.cut]
  exact intercalate_pieces '/' t

variable (w : Ways dir p t before name first more)
  (joined : ∀ value : List Char, (dir.join { bytes := encode value }).isAbsolute = true)
  (hentry : entryDir.isAbsolute = true)

include w joined hentry

theorem of_plain (text : ∀ value : List Char, ∃ t, (dir.join { bytes := encode value }).bytes = encode t)
    (same : plain ((dir.join { bytes := encode (p ++ t) }).relativeTo entryDir).toSlash =
      plain ((dir.join { bytes := encode p }).relativeTo entryDir).toSlash ++ t) :
    (∀ n ∈ more, IsOrdinary n) ∧ ¬before ++ [ofName name] <+: fold entryDir.components ∧
      ¬before ++ [ofName (name ++ first)] <+: fold entryDir.components := by
  obtain ⟨inner, last, cut⟩ : ∃ inner last, segmentsOf
      (plain ((dir.join { bytes := encode p }).relativeTo entryDir).toSlash) = inner ++ [last] :=
    ⟨_, _, (List.dropLast_append_getLast (pieces_ne_nil _ _)).symm⟩
  have cutAgain := pieces_append cut w.cut
  rw [← same] at cutAgain
  have later := ordinary_of_plain_append (joined _) hentry (text _) (ordinary_of_mark last w.marked) cutAgain
  obtain ⟨_, _, _, length⟩ := segmentsOf_relativeTo (joined p) hentry (text p)
  obtain ⟨_, _, _, length'⟩ := segmentsOf_relativeTo (joined (p ++ t)) hentry (text (p ++ t))
  rw [cut, w.here] at length
  rw [segmentsOf, cutAgain, w.there later] at length'
  refine ⟨later, not_prefix_of_length (more.map ofName) w.ofName_ne_ofName_append ?_⟩
  rw [← length', ← length]
  simp
  omega

theorem plain_eq (later : ∀ n ∈ more, IsOrdinary n)
    (outside : ¬before ++ [ofName name] <+: fold entryDir.components)
    (outside' : ¬before ++ [ofName (name ++ first)] <+: fold entryDir.components) :
    plain ((dir.join { bytes := encode (p ++ t) }).relativeTo entryDir).toSlash =
      plain ((dir.join { bytes := encode p }).relativeTo entryDir).toSlash ++ t := by
  have shown_ : (more.map ofName).map shown = more := by simp [Function.comp_def]
  rw [Path.toSlash_relativeTo (joined _) hentry, Path.toSlash_relativeTo (joined _) hentry, w.here, w.there later,
    route_append outside, route_append outside']
  simp only [List.map_append, List.map_cons, shown_ofName, shown_, List.map_nil]
  rw [plain_intercalate _ first more w.named.1, w.intercalate_first_more]

end Ways

/-- A suffix that begins with the mark of a query or a fragment is written behind the rebased reference as it stands
exactly where its later segments are names, and where the entry directory lies neither at the path without the suffix
or below it, nor at the path with the first segment of the suffix or below it. -/
theorem rebase?_suffix_iff (file : String) (entryDir : Path) {p t name r : List Char}
    (hfile : (Path.ofString file).isAbsolute = true) (hentry : entryDir.isAbsolute = true)
    (last : (segmentsOf p).getLast? = some name) (named : IsOrdinary name)
    (marked : t.head? = some '?' ∨ t.head? = some '#')
    (h : rebase? p (Path.ofString file) entryDir = some r) (unskipped : isSkipped (p ++ t) = false) :
    rebase? (p ++ t) (Path.ofString file) entryDir = some (r ++ escape t) ↔
      (∀ segment ∈ (segmentsOf t).tail, IsOrdinary segment) ∧
        ¬((Path.ofString file).join { bytes := encode p }).Contains entryDir ∧
        ¬((Path.ofString file).join { bytes := encode (p ++ t.takeWhile (· ≠ '/')) }).Contains entryDir := by
  obtain ⟨unskipped', low, written_⟩ := rebase?_eq_some h
  obtain ⟨before, more, ways⟩ := exists_ways hfile last named marked unskipped'
  have joined (value : List Char) := Path.isAbsolute_join hfile { bytes := encode value }
  have text (value : List Char) : ∃ t, ((Path.ofString file).join { bytes := encode value }).bytes = encode t :=
    Path.exists_text_join ⟨_, rfl⟩ ⟨_, rfl⟩
  rw [Path.contains_iff, Path.contains_iff, ways.here, ways.beside, ways.cut, List.tail_cons]
  rw [written_eq_escape] at written_
  constructor
  · intro again
    obtain ⟨_, _, writtenAgain⟩ := rebase?_eq_some again
    rw [written_eq_escape, written_, ← escape_append] at writtenAgain
    exact ways.of_plain joined hentry text (escape_injective writtenAgain).symm
  · rintro ⟨later, outside, outside'⟩
    rw [rebase?_of_unskipped unskipped ((ways.climbs later).trans low), written_, written_eq_escape,
      ways.plain_eq joined hentry later outside outside', escape_append]

theorem rebase?_doubled_slash :
    rebase? "a.png".toList "/w/s" "/w" = some "s/a.png".toList ∧ isSkipped "a.png?q=b//c".toList = false ∧
      rebase? "a.png?q=b//c".toList "/w/s" "/w" ≠ some ("s/a.png".toList ++ escape "?q=b//c".toList) := by
  decide +kernel

theorem rebase?_suffix_iff_query :
    (Path.ofString "/w/s").isAbsolute = true ∧ (Path.ofString "/w").isAbsolute = true ∧
      (segmentsOf "../a.png".toList).getLast? = some "a.png".toList ∧ IsOrdinary "a.png".toList ∧
      "?q=(b/c)".toList.head? = some '?' ∧
      rebase? "../a.png".toList (Path.ofString "/w/s") "/w" = some "a.png".toList ∧
      isSkipped ("../a.png".toList ++ "?q=(b/c)".toList) = false ∧
      rebase? ("../a.png".toList ++ "?q=(b/c)".toList) (Path.ofString "/w/s") "/w" =
        some ("a.png".toList ++ escape "?q=(b/c)".toList) := by
  have file : (Path.ofString "/w/s").isAbsolute = true := by decide
  have entry : (Path.ofString "/w").isAbsolute = true := by decide
  have last : (segmentsOf "../a.png".toList).getLast? = some "a.png".toList := by decide
  have named : IsOrdinary "a.png".toList := by decide
  have marked : "?q=(b/c)".toList.head? = some '?' := by decide
  have rebased : rebase? "../a.png".toList (Path.ofString "/w/s") "/w" = some "a.png".toList := by decide +kernel
  have unskipped : isSkipped ("../a.png".toList ++ "?q=(b/c)".toList) = false := by decide
  refine ⟨file, entry, last, named, marked, rebased, unskipped, ?_⟩
  apply (rebase?_suffix_iff "/w/s" "/w" file entry last named (.inl marked) rebased unskipped).mpr
  refine ⟨by decide, ?_, ?_⟩ <;>
    unfold Path.Contains <;> decide +kernel

end Reference

end StylesheetImports
