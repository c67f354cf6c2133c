import StylesheetImports.Proofs.Path.Parent

set_option autoImplicit false

namespace StylesheetImports

namespace Path

open Component

/-- A directory in normal form that is a path or lies above it. -/
structure IsAbove (dir p : Path) : Prop where
  absolute : dir.isAbsolute = true
  normal : dir.normalize = dir
  contains : dir.Contains p

theorem exists_names_of_normal {p : Path} (absolute : p.isAbsolute = true) (normal : p.normalize = p) :
    ∃ names : List Bytes, p = ofComponents (.root :: names.map .name) ∧
      p.components = .root :: names.map .name ∧ ∀ n ∈ names, IsName n := by
  obtain ⟨names, same, mem⟩ := exists_fold_components absolute
  refine ⟨names, by rw [← same, ← normalize, normal], ?_, fun n hn => isSegment_of_mem_stepsOf (mem n hn)⟩
  rw [← same, fold_components normal]

theorem normalize_ofComponents {names : List Bytes} (h : ∀ n ∈ names, IsName n) :
    (ofComponents (.root :: names.map .name)).normalize = ofComponents (.root :: names.map .name) := by
  rw [normalize, components_ofComponents_absolute (isSegment_of_mem_map h), fold_names]

theorem contains_ofComponents {names more : List Bytes} (h : ∀ n ∈ names, IsName n) (h' : ∀ n ∈ more, IsName n) :
    (ofComponents (.root :: names.map .name)).Contains (ofComponents (.root :: more.map .name)) ↔ names <+: more := by
  rw [Contains, normalize_ofComponents h, normalize_ofComponents h',
    components_ofComponents_absolute (isSegment_of_mem_map h), components_ofComponents_absolute (isSegment_of_mem_map h'),
    List.cons_prefix_cons]
  exact (and_iff_right rfl).trans (List.prefix_map_iff_of_injective fun _ _ => Component.name.inj)

theorem ancestors_of_normal {p : Path} (absolute : p.isAbsolute = true) (normal : p.normalize = p) :
    ∃ names : List Bytes, (∀ n ∈ names, IsName n) ∧ p = ofComponents (.root :: names.map .name) ∧
      p.ancestors = (names.inits.map fun above => ofComponents (.root :: above.map .name)).reverse := by
  obtain ⟨names, written, _, isName⟩ := exists_names_of_normal absolute normal
  refine ⟨names, isName, written, ?_⟩
  rw [written, ancestors_ofComponents (.absolute isName), if_pos List.mem_cons_self, List.append_nil, List.inits_cons,
    List.tail_cons, List.map_inits, List.map_map, List.map_map]
  rfl

variable {p : Path}

theorem mem_ancestors (absolute : p.isAbsolute = true) (normal : p.normalize = p) {dir : Path} :
    dir ∈ p.ancestors ↔ dir.IsAbove p := by
  obtain ⟨names, isName, written, all⟩ := ancestors_of_normal absolute normal
  rw [all, List.mem_reverse, List.mem_map]
  constructor
  · rintro ⟨above, mem, rfl⟩
    have first : above <+: names := (List.mem_inits _ _).mp mem
    have isName' : ∀ n ∈ above, IsName n := fun n hn => isName n (first.subset hn)
    refine ⟨isAbsolute_ofComponents _, normalize_ofComponents isName', ?_⟩
    rw [written]
    exact (contains_ofComponents isName' isName).mpr first
  · rintro ⟨absolute', normal', contains⟩
    obtain ⟨above, written', _, isName'⟩ := exists_names_of_normal absolute' normal'
    rw [written', written] at contains
    exact ⟨above, (List.mem_inits _ _).mpr ((contains_ofComponents isName' isName).mp contains), written'.symm⟩

theorem pairwise_ancestors (absolute : p.isAbsolute = true) (normal : p.normalize = p) :
    p.ancestors.Pairwise fun near far => far.Contains near := by
  obtain ⟨names, isName, _, all⟩ := ancestors_of_normal absolute normal
  have inits (l : List Bytes) : l.inits.Pairwise (· <+: ·) := by
    induction l with
    | nil => simp
    | cons n l ih =>
      rw [List.inits_cons, List.pairwise_cons, List.pairwise_map]
      exact ⟨fun _ _ => List.nil_prefix, ih.imp fun first => List.cons_prefix_cons.mpr ⟨rfl, first⟩⟩
  rw [all, List.pairwise_reverse, List.pairwise_map]
  refine (inits names).imp_of_mem fun {above below} mem mem' first => ?_
  have known {l : List Bytes} (mem : l ∈ names.inits) : ∀ n ∈ l, IsName n :=
    fun n hn => isName n (((List.mem_inits _ _).mp mem).subset hn)
  exact (contains_ofComponents (known mem) (known mem')).mpr first

theorem isAbsolute_parent? {p dir : Path} (parent : p.parent? = some dir) : dir.isAbsolute = p.isAbsolute := by
  rw [Bool.eq_iff_iff]
  exact ⟨isAbsolute_of_parent? parent, fun absolute => (components_of_parent? absolute parent).1⟩

theorem isAbsolute_of_mem_ancestors {p dir : Path} (mem : dir ∈ p.ancestors) : dir.isAbsolute = p.isAbsolute := by
  have along (fuel : Nat) : ∀ p : Path, ∀ dir ∈ ancestorsFrom fuel p, dir.isAbsolute = p.isAbsolute := by
    induction fuel with
    | zero =>
      intro p dir mem
      rw [List.mem_singleton.mp mem]
    | succ fuel ih =>
      intro p dir mem
      rw [ancestorsFrom] at mem
      cases parent : p.parent? with
      | none =>
        rw [parent, List.mem_singleton] at mem
        rw [mem]
      | some above =>
        rw [parent] at mem
        rcases List.mem_cons.mp mem with rfl | mem
        · rfl
        · exact (ih above dir mem).trans (isAbsolute_parent? parent)
  exact along _ p dir mem

end Path

end StylesheetImports
