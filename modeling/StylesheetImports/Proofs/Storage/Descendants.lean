import StylesheetImports.Proofs.Path.Child
import StylesheetImports.Proofs.Storage.Node

set_option autoImplicit false

namespace StylesheetImports

namespace Node

/-- A tree in order: the entries of each directory stand in ascending order of their names, and each name can stand in
a path and is text. -/
def Proper (n : Node) : Prop :=
  ∀ place entries, n.get? place = some (.directory entries) ->
    entries.Pairwise (·.1 < ·.1) ∧ ∀ entry ∈ entries, IsName entry.1 ∧ ∃ text, entry.1 = Utf8.encode text

/-- `node` stands at the place `below` in the directory `n`, all directories on the way are entered, and `node` is
itself if it is one. -/
structure Shown (enters : Bytes -> Bool) (n : Node) (below : List Bytes) (node : Node) : Prop where
  some : below ≠ []
  there : n.get? below = .some node
  entered : ∀ name ∈ below.dropLast, enters name = true
  enterable : node.isDirectory = true -> ∀ name ∈ below.getLast?, enters name = true

variable {enters : Bytes -> Bool} {n node child : Node} {name : Bytes} {below : List Bytes}
  {rest entries : List (Bytes × Node)}

theorem lookup_eq_none_of_lt (above : ∀ entry ∈ rest, name < entry.1) : rest.lookup name = none := by
  rw [List.lookup_eq_none_iff]
  intro entry mem
  have apart : name ≠ entry.1 := fun same => absurd (above entry mem) (same ▸ List.lt_irrefl _)
  simpa using apart

namespace Proper

theorem pairwise (proper : (Node.directory entries).Proper) : entries.Pairwise (·.1 < ·.1) :=
  (proper [] entries rfl).1

theorem get? (proper : n.Proper) {place : List Bytes} (there : n.get? place = some node) : node.Proper := by
  intro more entries held
  apply proper (place ++ more) entries
  rw [Node.get?_append, there]
  exact held

theorem above (proper : (Node.directory ((name, child) :: rest)).Proper) : ∀ entry ∈ rest, name < entry.1 :=
  (List.pairwise_cons.mp proper.pairwise).1

theorem first (proper : (Node.directory ((name, child) :: rest)).Proper) : child.Proper := by
  refine Proper.get? proper (?_ : (directory ((name, child) :: rest)).get? [name] = some child)
  rw [get?_cons, child?, Node.entries, lookup_entry, if_pos rfl]
  rfl

theorem others (proper : (Node.directory ((name, child) :: rest)).Proper) : (Node.directory rest).Proper := by
  intro place entries held
  cases place with
  | nil =>
    obtain rfl := Node.directory.inj (Option.some.inj held)
    have whole := proper [] _ rfl
    exact ⟨(List.pairwise_cons.mp whole.1).2, fun entry mem => whole.2 entry (List.mem_cons_of_mem _ mem)⟩
  | cons first place =>
    refine proper (first :: place) entries ?_
    have apart : first ≠ name := by
      rintro rfl
      rw [get?_cons, child?, Node.entries, lookup_eq_none_of_lt proper.above] at held
      cases held
    rw [get?_cons, child?, Node.entries] at held ⊢
    rwa [lookup_entry, if_neg apart]

theorem named (proper : n.Proper) (there : n.get? below = some node) :
    ∀ name ∈ below, IsName name ∧ ∃ text, name = Utf8.encode text := by
  intro name mem
  obtain ⟨before, after, rfl⟩ := List.append_of_mem mem
  rw [get?_append] at there
  obtain ⟨dir, held, inside⟩ := Option.bind_eq_some_iff.mp there
  rw [get?_cons] at inside
  obtain ⟨child, found, -⟩ := Option.bind_eq_some_iff.mp inside
  cases dir with
  | directory entries => exact (proper before entries held).2 _ (mem_of_lookup found)
  | file | device | link => cases found

theorem of_leaf (leaf : ∀ entries, n ≠ .directory entries) : n.Proper := by
  intro place entries held
  cases place with
  | nil => exact absurd (Option.some.inj held) (leaf entries)
  | cons name place => rw [get?_below_leaf leaf] at held; cases held

theorem of_directory (pairwise : entries.Pairwise (·.1 < ·.1))
    (named : ∀ entry ∈ entries, IsName entry.1 ∧ ∃ text, entry.1 = Utf8.encode text)
    (inside : ∀ entry ∈ entries, entry.2.Proper) : (Node.directory entries).Proper := by
  intro place entries' held
  cases place with
  | nil =>
    obtain rfl := Node.directory.inj (Option.some.inj held)
    exact ⟨pairwise, named⟩
  | cons name place =>
    rw [get?_cons] at held
    obtain ⟨child, found, there⟩ := Option.bind_eq_some_iff.mp held
    exact inside _ (mem_of_lookup found) place entries' there

end Proper

theorem not_shown_leaf (leaf : ∀ entries, n ≠ .directory entries) : ¬Shown enters n below node := by
  rintro ⟨some, there, -, -⟩
  obtain ⟨name, more, rfl⟩ := List.exists_cons_of_ne_nil some
  rw [get?_below_leaf leaf] at there
  cases there

theorem shown_cons (absent : rest.lookup name = none) :
    Shown enters (.directory ((name, child) :: rest)) below node ↔
      (child.isDirectory = true -> enters name = true) ∧
          (below = [name] ∧ node = child ∨ ∃ more, below = name :: more ∧ Shown enters child more node) ∨
        Shown enters (.directory rest) below node := by
  constructor
  next =>
    rintro ⟨some, there, entered, enterable⟩
    obtain ⟨first, more, rfl⟩ := List.exists_cons_of_ne_nil some
    rw [get?_cons, child?, Node.entries, lookup_entry] at there
    by_cases same : first = name
    next =>
      subst same
      rw [if_pos rfl, Option.bind_some] at there
      cases more with
      | nil =>
        obtain rfl := Option.some.inj there
        exact .inl ⟨fun inside => enterable inside first rfl, .inl ⟨rfl, rfl⟩⟩
      | cons second more =>
        have deeper : Shown enters child (second :: more) node :=
          ⟨by simp, there, fun name mem => entered name (List.mem_cons_of_mem _ mem), enterable⟩
        exact .inl ⟨fun _ => entered first List.mem_cons_self, .inr ⟨_, rfl, deeper⟩⟩
    next =>
      rw [if_neg same] at there
      exact .inr ⟨some, by rwa [get?_cons], entered, enterable⟩
  next =>
    have found : (directory ((name, child) :: rest)).child? name = .some child := by
      rw [child?, Node.entries, lookup_entry, if_pos rfl]
    rintro (⟨open_, ⟨rfl, rfl⟩ | ⟨more, rfl, shown⟩⟩ | ⟨some, there, entered, enterable⟩)
    · refine ⟨by simp, by rw [get?_cons, found]; rfl, by simp, fun inside last mem => ?_⟩
      obtain rfl : name = last := by simpa using mem
      exact open_ inside
    · obtain ⟨some, there, entered, enterable⟩ := shown
      obtain ⟨second, more, rfl⟩ := List.exists_cons_of_ne_nil some
      have inside : child.isDirectory = true := by
        cases child with
        | directory => rfl
        | file | device | link => cases there
      refine ⟨by simp, by rwa [get?_cons, found], fun entering mem => ?_, enterable⟩
      rcases List.mem_cons.mp mem with rfl | deeper
      · exact open_ inside
      · exact entered entering deeper
    · obtain ⟨first, more, rfl⟩ := List.exists_cons_of_ne_nil some
      have apart : first ≠ name := by
        rintro rfl
        rw [get?_cons, child?, Node.entries, absent] at there
        cases there
      refine ⟨some, ?_, entered, enterable⟩
      rw [get?_cons, child?, Node.entries] at there ⊢
      rwa [lookup_entry, if_neg apart]

mutual

theorem mem_descendants (n : Node) (proper : n.Proper) (names place : List Bytes) :
    (place, node) ∈ n.descendants enters names ↔ ∃ below, place = names ++ below ∧ Shown enters n below node := by
  cases n with
  | directory entries => exact mem_descendantsIn entries proper names place
  | file | device | link => exact ⟨nofun, fun ⟨below, _, shown⟩ => absurd shown (not_shown_leaf (by simp))⟩

theorem mem_descendantsIn (entries : List (Bytes × Node)) (proper : (Node.directory entries).Proper)
    (names place : List Bytes) :
    (place, node) ∈ descendantsIn enters names entries ↔
      ∃ below, place = names ++ below ∧ Shown enters (.directory entries) below node := by
  match entries, proper with
  | [], _ =>
    refine ⟨nofun, fun ⟨below, _, shown⟩ => ?_⟩
    obtain ⟨name, more, rfl⟩ := List.exists_cons_of_ne_nil shown.some
    cases shown.there
  | (name, child) :: rest, proper =>
    have first := mem_descendants child proper.first (names ++ [name]) place
    have others := mem_descendantsIn rest proper.others names place
    have here : (place, node) ∈ (if child.isDirectory && !enters name then []
          else (names ++ [name], child) :: descendants enters (names ++ [name]) child) ↔
        ∃ below, place = names ++ below ∧ (child.isDirectory = true -> enters name = true) ∧
          (below = [name] ∧ node = child ∨ ∃ more, below = name :: more ∧ Shown enters child more node) := by
      by_cases open_ : child.isDirectory = true -> enters name = true
      next =>
        have kept : ¬(child.isDirectory && !enters name) = true := by simpa using open_
        rw [if_neg kept, List.mem_cons, Prod.mk.injEq, first]
        constructor
        · rintro (⟨rfl, rfl⟩ | ⟨more, rfl, shown⟩)
          · exact ⟨[name], rfl, open_, .inl ⟨rfl, rfl⟩⟩
          · exact ⟨name :: more, by simp, open_, .inr ⟨more, rfl, shown⟩⟩
        · rintro ⟨below, rfl, -, ⟨rfl, rfl⟩ | ⟨more, rfl, shown⟩⟩
          · exact .inl ⟨rfl, rfl⟩
          · exact .inr ⟨more, by simp, shown⟩
      next =>
        have left : (child.isDirectory && !enters name) = true := by simpa using open_
        rw [if_pos left]
        exact ⟨nofun, fun ⟨_, _, entering, _⟩ => absurd entering open_⟩
    rw [descendantsIn, List.mem_append, here, others]
    simp only [shown_cons (lookup_eq_none_of_lt proper.above), and_or_left, exists_or]

end

mutual

theorem pairwise_descendants (n : Node) (proper : n.Proper) (names : List Bytes) :
    (n.descendants enters names).Pairwise (·.1 < ·.1) := by
  cases n with
  | directory entries => exact pairwise_descendantsIn entries proper names
  | file | device | link => exact .nil

theorem pairwise_descendantsIn (entries : List (Bytes × Node)) (proper : (Node.directory entries).Proper)
    (names : List Bytes) : (descendantsIn enters names entries).Pairwise (·.1 < ·.1) := by
  match entries, proper with
  | [], _ => exact .nil
  | (name, child) :: rest, proper =>
    have deeper := pairwise_descendants child proper.first (names ++ [name])
    have later := pairwise_descendantsIn rest proper.others names
    -- All at this name comes before all at the names behind it.
    have behind {place : List Bytes} {node : Node} (mem : (place, node) ∈ descendantsIn enters names rest)
        (more : List Bytes) : names ++ name :: more < place := by
      obtain ⟨below, rfl, shown⟩ := (mem_descendantsIn rest proper.others names place).mp mem
      obtain ⟨other, after, rfl⟩ := List.exists_cons_of_ne_nil shown.some
      have there := shown.there
      rw [get?_cons] at there
      obtain ⟨child, found, -⟩ := Option.bind_eq_some_iff.mp there
      exact List.append_left_lt (.rel (proper.above _ (mem_of_lookup found)))
    rw [descendantsIn]
    refine List.pairwise_append.mpr ⟨?_, later, ?_⟩
    next =>
      split
      next => exact .nil
      next =>
        refine List.pairwise_cons.mpr ⟨fun told mem => ?_, deeper⟩
        obtain ⟨below, same, shown⟩ := (mem_descendants child proper.first (names ++ [name]) told.1).mp mem
        obtain ⟨other, after, rfl⟩ := List.exists_cons_of_ne_nil shown.some
        rw [same, List.append_assoc]
        exact List.append_left_lt (.cons .nil)
    next =>
      intro told mem other later
      split at mem
      next => cases mem
      next =>
        rcases List.mem_cons.mp mem with rfl | inside
        · exact behind later []
        · obtain ⟨below, same, shown⟩ := (mem_descendants child proper.first (names ++ [name]) told.1).mp inside
          rw [same, List.append_assoc]
          exact behind later below

end

end Node

end StylesheetImports
