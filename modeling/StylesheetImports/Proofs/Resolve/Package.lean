import StylesheetImports.Proofs.Path.Ancestors
import StylesheetImports.Proofs.Resolve.Relative
import StylesheetImports.Rebase.Rebaser
import StylesheetImports.Resolve.Package

set_option autoImplicit false

namespace StylesheetImports

namespace Package

/-- What is left of a specifier without the first of the marks that it begins with. -/
inductive Stripped (marks : List String) (specifier bare : List Char) : Prop where
  | marked {before : List String} {mark : String} {after : List String} (split : marks = before ++ mark :: after)
      (earlier : ∀ other ∈ before, ¬other.toList <+: specifier) (written : specifier = mark.toList ++ bare)
  | unmarked (none : ∀ mark ∈ marks, ¬mark.toList <+: specifier) (whole : bare = specifier)

variable {marks : List String} {specifier bare : List Char}

theorem isPrefixOf?_eq_none {mark : List Char} : mark.isPrefixOf? specifier = none ↔ ¬mark <+: specifier := by
  rw [← Option.not_isSome_iff_eq_none, List.isSome_isPrefixOf?_eq_isPrefixOf, List.isPrefixOf_iff_prefix]

theorem stripped_iff : Stripped marks specifier bare ↔ strip marks specifier = bare := by
  have some_iff {left : List Char} :
      marks.findSome? (fun mark => mark.toList.isPrefixOf? specifier) = some left ↔
        ∃ before mark after, marks = before ++ mark :: after ∧ mark.toList ++ left = specifier ∧
          ∀ other ∈ before, ¬other.toList <+: specifier := by
    simp only [List.findSome?_eq_some_iff, List.isPrefixOf?_eq_some_iff_append_eq, isPrefixOf?_eq_none]
  have none_iff : marks.findSome? (fun mark => mark.toList.isPrefixOf? specifier) = none ↔
      ∀ mark ∈ marks, ¬mark.toList <+: specifier := by
    simp only [List.findSome?_eq_none_iff, isPrefixOf?_eq_none]
  unfold strip
  constructor
  · rintro (⟨split, earlier, written⟩ | ⟨none, rfl⟩)
    · rw [some_iff.mpr ⟨_, _, _, split, written.symm, earlier⟩, Option.getD_some]
    · rw [none_iff.mpr none, Option.getD_none]
  · rintro rfl
    cases found : marks.findSome? (fun mark => mark.toList.isPrefixOf? specifier) with
    | none => exact .unmarked (none_iff.mp found) rfl
    | some left =>
      obtain ⟨before, mark, after, split, written, earlier⟩ := some_iff.mp found
      exact .marked split earlier written.symm

/-- The package that a specifier without marks begins with: its first segment, or its first two when the first of
them is a scope. -/
inductive Begins (bare : List Char) : Name -> Prop where
  | plain {name : List Char} {more : List (List Char)} (cut : pieces (· = '/') bare = name :: more)
      (alone : name.head? = some '@' -> more = []) : Begins bare { scope := none, name }
  | inScope {scope name : List Char} {more : List (List Char)} (cut : pieces (· = '/') bare = scope :: name :: more)
      (isScope : scope.head? = some '@') : Begins bare { scope := some scope, name }

def Nameless (bare : List Char) : Prop :=
  bare.head? = none ∨ bare.head? = some '.' ∨ bare.head? = some '/'

instance (bare : List Char) : Decidable (Nameless bare) :=
  inferInstanceAs (Decidable (_ ∨ _ ∨ _))

theorem name?_of_nameless (nameless : Nameless bare) : name? bare = none := by
  unfold name?
  rcases nameless with first | first | first <;> simp [first]

theorem exists_name? (named : ¬Nameless bare) : ∃ package, name? bare = some package ∧ Begins bare package := by
  cases bare with
  | nil => exact absurd (.inl rfl) named
  | cons c rest =>
    obtain ⟨noDot, noSlash⟩ : c ≠ '.' ∧ c ≠ '/' := by simpa [Nameless] using named
    have cut := pieces_eq (· = '/') (c :: rest)
    simp only [← decide_not] at cut
    have first : ((c :: rest).takeWhile (· ≠ '/')).head? = some c := by simp [noSlash]
    unfold name?
    simp only [List.head?_cons, noDot, noSlash, Bool.or_false, decide_false, Bool.false_eq_true, if_false]
    split
    next scope =>
      split
      next whole =>
        rw [whole] at cut
        exact ⟨_, rfl, .plain cut fun _ => rfl⟩
      next behind whole =>
        rw [whole] at cut
        have second := pieces_eq (· = '/') behind
        simp only [← decide_not] at second
        refine ⟨_, rfl, .inScope (cut.trans (congrArg _ second)) ?_⟩
        rw [first, scope]
    next noScope =>
      refine ⟨_, rfl, .plain cut fun isScope => ?_⟩
      rw [first] at isScope
      exact absurd (Option.some.inj isScope) noScope

/-- Whether a directory has a package installed. A package of a scope is listed in the directory of that scope. -/
def Installed (view : View) (dir : Path) : Name -> Prop
  | { scope := none, name } => String.ofList name ∈ (view.snapshot (dir.join "node_modules")).directories
  | { scope := some scope, name } =>
    String.ofList scope ∈ (view.snapshot (dir.join "node_modules")).directories ∧
      String.ofList name ∈ (view.snapshot ((dir.join "node_modules").join (String.ofList scope))).directories

instance (view : View) (dir : Path) : (package : Name) -> Decidable (Installed view dir package)
  | { scope := none, name := _ } => inferInstanceAs (Decidable (_ ∈ _))
  | { scope := some _, name := _ } => inferInstanceAs (Decidable (_ ∧ _))

-- Where a specifier without marks lies in the packages of a directory.
def inModules (bare : List Char) (dir : Path) : Path :=
  (dir.join "node_modules").join (String.ofList bare)

section

variable (view : View)

theorem eval_isIn (package : Name) (dir : Path) :
    (isIn package (dir.join "node_modules")).eval view = true ↔ Installed view dir package := by
  have lists (d : Directory) (name : String) : d.hasDirectory name = true ↔ name ∈ d.directories :=
    List.contains_iff_mem
  obtain ⟨scope, name⟩ := package
  unfold isIn
  simp only [Query.bind_eq, Query.eval_bind, Query.eval_lookup]
  cases scope with
  | none =>
    simp only [Installed, View.snapshot]
    cases view.directory (dir.join "node_modules") with
    | none => simp
    | some d => simp [lists]
  | some scope =>
    simp only [Installed, View.snapshot]
    cases view.directory (dir.join "node_modules") with
    | none => simp
    | some d =>
      simp only [Option.getD_some, lists]
      split
      next listed =>
        simp only [Query.eval_bind, Query.eval_lookup, listed, true_and]
        cases view.directory ((dir.join "node_modules").join (String.ofList scope)) with
        | none => simp
        | some inner => simp [lists]
      next unlisted => simp [unlisted]

theorem eval_nearest (bare : List Char) (package : Name) (dirs : List Path) :
    (nearest bare package dirs).eval view =
      (dirs.find? fun dir => decide (Installed view dir package)).bind fun dir => Url.ofPath? (inModules bare dir) := by
  induction dirs with
  | nil => rfl
  | cons dir dirs ih =>
    simp only [nearest, Query.bind_eq, Query.eval_bind, eval_isIn]
    by_cases here : Installed view dir package
    · rw [if_pos here, List.find?_cons_of_pos (by simpa using here)]
      rfl
    · rw [if_neg here, List.find?_cons_of_neg (by simpa using here), ih]

/-- The nearest directory, among an origin and those above it, that has a package installed. -/
structure Nearest (origin : Path) (package : Name) (dir : Path) : Prop where
  above : dir.IsAbove origin
  installed : Installed view dir package
  nearest : ∀ other : Path, other.IsAbove origin -> Installed view other package -> other.Contains dir

variable {origin : Path} (absolute : origin.isAbsolute = true) (normal : origin.normalize = origin)

include absolute normal

theorem nearest_iff (package : Name) {dir : Path} (found : origin.ancestors.find?
    (fun dir => decide (Installed view dir package)) = some dir) : Nearest view origin package dir := by
  obtain ⟨here, before, after, split, earlier⟩ := List.find?_eq_some_iff_append.mp found
  have mem : dir ∈ origin.ancestors := by rw [split]; simp
  refine ⟨(Path.mem_ancestors absolute normal).mp mem, by simpa using here, fun other above installed => ?_⟩
  have order := Path.pairwise_ancestors absolute normal
  have mem' := (Path.mem_ancestors absolute normal).mpr above
  rw [split] at mem' order
  rcases List.mem_append.mp mem' with first | last
  · exact absurd installed (by simpa using earlier other first)
  · rcases List.mem_cons.mp last with rfl | later
    · exact List.prefix_refl _
    · exact (List.pairwise_cons.mp (List.pairwise_append.mp order).2.1).1 other later

/-- Where a specifier is found: nowhere, when no name is left of it without its mark; and otherwise in the packages
of the nearest directory, from the origin up to the root, that has the package installed. -/
theorem installed_nearest (marks : List String) (specifier : String) (fromImport : Bool) :
    ∃ bare, Stripped marks specifier.toList bare ∧
      let answer := (installed marks specifier fromImport origin).eval view
      (Nameless bare -> answer = none) ∧
        (¬Nameless bare -> ∃ package, Begins bare package ∧
          ((∃ dir location, Nearest view origin package dir ∧ Url.ofPath? (inModules bare dir) = some location ∧
              answer = some location) ∨
            (∀ dir : Path, dir.IsAbove origin -> ¬Installed view dir package) ∧ answer = none)) := by
  refine ⟨_, stripped_iff.mpr rfl, fun nameless => ?_, fun named => ?_⟩
  · rw [installed, name?_of_nameless nameless]
    rfl
  · obtain ⟨package, read, begins⟩ := exists_name? named
    refine ⟨package, begins, ?_⟩
    rw [installed, read]
    simp only
    rw [eval_nearest]
    cases found : origin.ancestors.find? (fun dir => decide (Installed view dir package)) with
    | some dir =>
      have nearest := nearest_iff view absolute normal package found
      have made : Url.ofPath? (inModules (strip marks specifier.toList) dir) = some _ :=
        if_pos (Path.isAbsolute_join (Path.isAbsolute_join nearest.above.absolute _) _)
      exact .inl ⟨dir, _, nearest, made, made⟩
    | none =>
      refine .inr ⟨fun dir above installed => ?_, rfl⟩
      have missing := List.find?_eq_none.mp found dir ((Path.mem_ancestors absolute normal).mpr above)
      exact missing (by simpa using installed)

end

-- A scope that is listed in two directories, with the package in the one farther up.
def scopeView : View :=
  { directory := fun dir =>
      if dir = "/a/b/node_modules" then some { files := [], directories := ["@x"] }
      else if dir = "/a/b/node_modules/@x" then some { files := [], directories := ["z"] }
      else if dir = "/a/node_modules" then some { files := [], directories := ["@x"] }
      else if dir = "/a/node_modules/@x" then some { files := [], directories := ["y"] }
      else none
    text := fun _ => none }

theorem installed_nearest_scope :
    (Path.ofString "/a/b").isAbsolute = true ∧ (Path.ofString "/a/b").normalize = Path.ofString "/a/b" ∧
      ∃ dir location, Nearest scopeView "/a/b" { scope := some "@x".toList, name := "y".toList } dir ∧
        Url.ofPath? (inModules "@x/y/c".toList dir) = some location ∧
          (installed ["~"] "~@x/y/c" false "/a/b").eval scopeView = some location := by
  have absolute : (Path.ofString "/a/b").isAbsolute = true := by decide +kernel
  have normal : (Path.ofString "/a/b").normalize = Path.ofString "/a/b" := by decide +kernel
  obtain ⟨bare, stripped, _, named⟩ := installed_nearest scopeView absolute normal ["~"] "~@x/y/c" false
  obtain rfl := stripped_iff.mp stripped
  have left : strip ["~"] "~@x/y/c".toList = "@x/y/c".toList := by decide +kernel
  rw [left] at named
  obtain ⟨package, begins, answered⟩ := named (by decide +kernel)
  have same : package = { scope := some "@x".toList, name := "y".toList } := by
    have cut : pieces (· = '/') "@x/y/c".toList = ["@x".toList, "y".toList, "c".toList] := by decide +kernel
    cases begins with
    | plain cut' alone =>
      rw [cut, List.cons.injEq] at cut'
      exact absurd (cut'.2.trans (alone (by rw [← cut'.1]; decide))) (by simp)
    | inScope cut' _ =>
      simp only [cut, List.cons.injEq] at cut'
      rw [cut'.1, cut'.2.1]
  rw [same] at answered
  have above : (Path.ofString "/a").IsAbove "/a/b" :=
    ⟨by decide +kernel, by decide +kernel, by unfold Path.Contains; decide +kernel⟩
  have there : Installed scopeView "/a" { scope := some "@x".toList, name := "y".toList } := by decide +kernel
  exact ⟨absolute, normal, answered.resolve_right fun missing => missing.1 "/a" above there⟩

/-- Whether the first of the marks that a specifier begins with is not empty. -/
def Marked (marks : List String) (specifier : List Char) : Prop :=
  ∃ before mark after, marks = before ++ mark :: after ∧ (∀ other ∈ before, ¬other.toList <+: specifier) ∧
    mark ≠ "" ∧ mark.toList <+: specifier

-- The marks that mark something.
def telling (marks : List String) : List String :=
  marks.filter (· ≠ "")

theorem toList_ne_nil {mark : String} (some : mark ≠ "") : mark.toList ≠ [] := by
  intro empty
  exact some (String.toList_inj.mp empty)

theorem length_strip_telling {r : Rebaser} {specifier : String} (package : r.isPackage specifier = true) :
    (strip (telling r.packageMarks) specifier.toList).length < specifier.toList.length := by
  obtain ⟨mark, mem, test⟩ := List.any_eq_true.mp package
  obtain ⟨some, first⟩ := Bool.and_eq_true_iff.mp test
  rcases stripped_iff.mpr (rfl : strip (telling r.packageMarks) specifier.toList = _) with
    @⟨before, told, after, split, _, written⟩ | ⟨none, _⟩
  · have among : told ∈ telling r.packageMarks := by simp [split]
    have long := List.length_pos_iff.mpr (toList_ne_nil (by simpa using (List.mem_filter.mp among).2))
    have length := congrArg List.length written
    rw [List.length_append] at length
    omega
  · exact absurd (List.isPrefixOf_iff_prefix.mp first) (none mark (List.mem_filter.mpr ⟨mem, some⟩))

theorem Marked.strip_telling (marked : Marked marks specifier) :
    strip marks specifier = strip (telling marks) specifier := by
  obtain ⟨before, mark, after, rfl, earlier, some, left, written⟩ := marked
  have whole : Stripped (before ++ mark :: after) specifier left := .marked rfl earlier written.symm
  have fewer : Stripped (telling (before ++ mark :: after)) specifier left := by
    have parts : telling (before ++ mark :: after) = telling before ++ mark :: telling after := by
      simp [telling, List.filter_append, some]
    exact .marked parts (fun other mem => earlier other (List.mem_of_mem_filter mem)) written.symm
  rw [stripped_iff.mp whole, stripped_iff.mp fewer]

theorem strip_of_not_marked (unmarked : ¬Marked marks specifier) : strip marks specifier = specifier := by
  rcases stripped_iff.mpr (rfl : strip marks specifier = _) with @⟨before, mark, after, split, earlier, written⟩ | ⟨_, whole⟩
  · by_cases empty : mark = ""
    · rw [empty] at written
      exact written.symm
    · exact absurd ⟨before, mark, after, split, earlier, empty, _, written.symm⟩ unmarked
  · exact whole

/-- A package specifier is found as if there were no empty mark where its first mark is not empty, and otherwise as if
there were no mark at all. -/
theorem installed_marks (r : Rebaser) (specifier : String) (package : r.isPackage specifier = true) :
    (strip r.packageMarks specifier.toList = strip (telling r.packageMarks) specifier.toList ↔
        Marked r.packageMarks specifier.toList) ∧
      (Marked r.packageMarks specifier.toList ->
        installed r.packageMarks specifier = installed (telling r.packageMarks) specifier) ∧
      (¬Marked r.packageMarks specifier.toList -> installed r.packageMarks specifier = installed [] specifier) := by
  refine ⟨⟨fun alike => ?_, Marked.strip_telling⟩, fun marked => ?_, fun unmarked => ?_⟩
  · by_contra unmarked
    have shorter := length_strip_telling package
    rw [← alike, strip_of_not_marked unmarked] at shorter
    exact Nat.lt_irrefl _ shorter
  · funext fromImport origin
    rw [installed, installed, marked.strip_telling]
  · funext fromImport origin
    rw [installed, installed, strip_of_not_marked unmarked]
    rfl

-- The default marks, with an empty one in front.
def loose : Rebaser :=
  Rebaser.anchored "/w" ["", "~"] false

def looseView : View :=
  { directory := fun dir => if dir = "/w/node_modules" then some { files := [], directories := ["l"] } else none
    text := fun _ => none }

theorem installed_marks_default :
    (Rebaser.anchored "/w" ["~", "", "pkg:"] false).isPackage "~l/a" = true ∧
      (installed ["~", "", "pkg:"] "~l/a" false "/w").eval looseView =
        some (Url.ofSegments ["w".toList, "node_modules".toList, "l".toList, "a".toList]) := by
  have package : (Rebaser.anchored "/w" ["~", "", "pkg:"] false).isPackage "~l/a" = true := by decide
  have marked : Marked ["~", "", "pkg:"] "~l/a".toList :=
    ⟨[], "~", ["", "pkg:"], rfl, by simp, by decide, by decide⟩
  refine ⟨package, ?_⟩
  have same := (installed_marks (Rebaser.anchored "/w" ["~", "", "pkg:"] false) "~l/a" package).2.1 marked
  have told : installed ["~", "", "pkg:"] "~l/a" = installed ["~", "pkg:"] "~l/a" := same
  rw [told]
  decide +kernel

-- With an empty mark in front, a package specifier is looked for with its mark, and not found.
theorem installed_empty_mark :
    loose.isPackage "~l/a" = true ∧
      (installed (telling loose.packageMarks) "~l/a" false "/w").eval looseView =
        some (Url.ofSegments ["w".toList, "node_modules".toList, "l".toList, "a".toList]) ∧
      (installed loose.packageMarks "~l/a" false "/w").eval looseView = none := by
  refine ⟨?_, ?_, ?_⟩ <;> decide +kernel

end Package

end StylesheetImports
