import StylesheetImports.Storage.Node

set_option autoImplicit false

namespace StylesheetImports

namespace Node

section

variable (name other : Bytes) (node : Node) (entries : List (Bytes × Node))

theorem lookup_entry (entry : Bytes × Node) :
    (entry :: entries).lookup other = if other = entry.1 then some entry.2 else entries.lookup other := by
  by_cases same : other = entry.1
  next =>
    rw [same, if_pos rfl]
    exact List.lookup_cons_self
  next => rw [List.lookup_cons, beq_eq_false_iff_ne.mpr same, if_neg same]

theorem lookup_putEntry :
    (putEntry name node entries).lookup other = if other = name then some node else entries.lookup other := by
  induction entries with
  | nil => exact lookup_entry other [] (name, node)
  | cons entry entries ih =>
    obtain ⟨held, child⟩ := entry
    unfold putEntry
    split
    next equal =>
      subst equal
      rw [lookup_entry, lookup_entry]
      by_cases same : other = name <;> simp [same]
    next apart =>
      split
      next => exact lookup_entry other _ (name, node)
      next =>
        rw [lookup_entry, lookup_entry, ih]
        by_cases same : other = name <;> simp [same, apart]

theorem lookup_updateEntry (change : Node -> Node) :
    (updateEntry name change entries).lookup other =
      if other = name then (entries.lookup name).map change else entries.lookup other := by
  induction entries with
  | nil => simp [updateEntry]
  | cons entry entries ih =>
    obtain ⟨held, child⟩ := entry
    unfold updateEntry
    split
    next here =>
      subst here
      rw [lookup_entry, lookup_entry, lookup_entry]
      by_cases same : other = name <;> simp [same]
    next apart =>
      rw [lookup_entry, lookup_entry, lookup_entry, ih]
      by_cases same : other = name <;> simp [same, apart]

theorem lookup_removeEntry :
    (removeEntry name entries).lookup other = if other = name then none else entries.lookup other := by
  induction entries with
  | nil => simp [removeEntry]
  | cons entry entries ih =>
    obtain ⟨held, child⟩ := entry
    unfold removeEntry at ih ⊢
    by_cases here : held = name
    next =>
      rw [List.filter_cons_of_neg (by simp [here]), ih, lookup_entry]
      by_cases same : other = name <;> simp [same, here]
    next =>
      rw [List.filter_cons_of_pos (by simp [here]), lookup_entry, lookup_entry, ih]
      by_cases same : other = held <;> simp [same, here]

variable {name entries}

theorem mem_of_lookup {child : Node} (found : entries.lookup name = some child) : (name, child) ∈ entries := by
  obtain ⟨before, after, rfl, -⟩ := List.lookup_eq_some_iff.mp found
  simp

theorem ne_of_lookup_eq_none (absent : entries.lookup name = none) {entry : Bytes × Node} (mem : entry ∈ entries) :
    entry.1 ≠ name := by
  rintro rfl
  simpa using List.lookup_eq_none_iff.mp absent entry mem

theorem putEntry_putEntry (first second : Node) :
    putEntry name second (putEntry name first entries) = putEntry name second entries := by
  induction entries with
  | nil => simp [putEntry]
  | cons entry entries ih =>
    obtain ⟨held, child⟩ := entry
    by_cases here : name = held
    · simp [putEntry, here]
    · by_cases before : name < held <;> simp [putEntry, here, before, ih]

theorem removeEntry_putEntry (absent : entries.lookup name = none) :
    removeEntry name (putEntry name node entries) = entries := by
  have kept : removeEntry name entries = entries :=
    List.filter_eq_self.mpr fun entry mem => by simpa using ne_of_lookup_eq_none absent mem
  induction entries with
  | nil => simp [putEntry, removeEntry]
  | cons entry entries ih =>
    obtain ⟨held, child⟩ := entry
    have apart : held ≠ name := ne_of_lookup_eq_none absent List.mem_cons_self
    have later : entries.lookup name = none := by
      rw [lookup_entry] at absent
      simpa [Ne.symm apart] using absent
    unfold removeEntry at ih kept ⊢
    unfold putEntry
    rw [if_neg (Ne.symm apart)]
    split
    next => rw [List.filter_cons_of_neg (by simp), kept]
    next =>
      rw [List.filter_cons_of_pos (by simp [apart])] at kept ⊢
      rw [ih later (List.cons.inj kept).2]

theorem updateEntry_eq_self {change : Node -> Node} (same : ∀ child, entries.lookup name = some child ->
    change child = child) : updateEntry name change entries = entries := by
  induction entries with
  | nil => rfl
  | cons entry entries ih =>
    obtain ⟨held, child⟩ := entry
    simp only [lookup_entry] at same
    unfold updateEntry
    split
    next here => rw [same child (by simp [here])]
    next apart => rw [ih fun child found => same child (by simpa [apart] using found)]

theorem updateEntry_updateEntry (first second : Node -> Node) :
    updateEntry name second (updateEntry name first entries) = updateEntry name (second ∘ first) entries := by
  induction entries with
  | nil => rfl
  | cons entry entries ih =>
    obtain ⟨held, child⟩ := entry
    by_cases here : name = held <;> simp [updateEntry, here, ih]

end

variable {n : Node} {dir place names : List Bytes} {name : Bytes}

theorem get?_cons : n.get? (name :: names) = (n.child? name).bind (·.get? names) := by
  rw [get?]
  cases n.child? name <;> rfl

theorem get?_append (n : Node) (names more : List Bytes) :
    n.get? (names ++ more) = (n.get? names).bind (·.get? more) := by
  induction names generalizing n with
  | nil => rfl
  | cons name names ih =>
    rw [List.cons_append, get?_cons, get?_cons, Option.bind_assoc]
    exact congrArg _ (funext ih)

theorem get?_concat (n : Node) (dir : List Bytes) (name : Bytes) :
    n.get? (dir ++ [name]) = (n.get? dir).bind (·.child? name) := by
  rw [get?_append]
  refine congrArg _ (funext fun child => ?_)
  rw [get?_cons]
  cases child.child? name <;> rfl

def bare : Node -> Node
  | .directory _ => .directory []
  | n => n

theorem isDirectory_eq_of_bare {m : Node} (same : m.bare = n.bare) : m.isDirectory = n.isDirectory := by
  cases m <;> cases n <;> simp_all [bare, isDirectory]

theorem bare_get?_modify (change : List (Bytes × Node) -> List (Bytes × Node))
    (outside : dir <+: names -> names = dir) :
    ((n.modify change dir).get? names).map bare = (n.get? names).map bare := by
  induction dir generalizing n names with
  | nil =>
    rw [outside List.nil_prefix]
    cases n <;> simp [modify, get?, bare]
  | cons first dir ih =>
    cases n with
    | directory entries =>
      cases names with
      | nil => simp [modify, get?, bare]
      | cons name names =>
        rw [modify, get?_cons, get?_cons, child?, child?, Node.entries, Node.entries, lookup_updateEntry]
        by_cases same : name = first
        next =>
          subst same
          rw [if_pos rfl]
          cases entries.lookup name with
          | none => rfl
          | some child =>
            exact ih fun before => (List.cons.inj (outside (List.cons_prefix_cons.mpr ⟨rfl, before⟩))).2
        next => rw [if_neg same]
    | file | device | link => rfl

theorem get?_modify (change : List (Bytes × Node) -> List (Bytes × Node)) (names : List Bytes) :
    (n.modify change dir).get? (dir ++ names) = (n.get? dir).bind fun d => (d.modify change []).get? names := by
  induction dir generalizing n with
  | nil => rfl
  | cons first dir ih =>
    cases n with
    | directory entries =>
      rw [modify, List.cons_append, get?_cons, get?_cons, child?, child?, Node.entries, Node.entries, lookup_updateEntry,
        if_pos rfl]
      cases entries.lookup first with
      | none => rfl
      | some child => exact ih
    | file | device | link => rfl

theorem modify_eq_self {change : List (Bytes × Node) -> List (Bytes × Node)}
    (same : ∀ entries, n.get? dir = some (.directory entries) -> change entries = entries) :
    n.modify change dir = n := by
  induction dir generalizing n with
  | nil =>
    cases n with
    | directory entries => rw [modify, same entries rfl]
    | file | device | link => rfl
  | cons first dir ih =>
    cases n with
    | directory entries =>
      rw [modify, updateEntry_eq_self]
      intro child found
      refine ih fun entries there => same entries ?_
      rw [get?_cons, child?, Node.entries, found]
      exact there
    | file | device | link => rfl

theorem modify_modify (first second : List (Bytes × Node) -> List (Bytes × Node)) :
    (n.modify first dir).modify second dir = n.modify (second ∘ first) dir := by
  induction dir generalizing n with
  | nil => cases n <;> rfl
  | cons name dir ih =>
    cases n with
    | directory entries =>
      simp only [modify, updateEntry_updateEntry]
      exact congrArg (fun change => directory (updateEntry name change entries)) (funext fun child => ih)
    | file | device | link => rfl

theorem remove_put (absent : n.get? (dir ++ [name]) = none) (node : Node) :
    (n.put dir name node).remove dir name = n := by
  rw [put, remove, modify_modify]
  refine modify_eq_self fun entries there => removeEntry_putEntry node ?_
  rw [get?_concat, there] at absent
  exact absent

theorem put_put (first second : Node) : (n.put dir name first).put dir name second = n.put dir name second := by
  rw [put, put, put, modify_modify]
  exact congrArg (n.modify · dir) (funext fun entries => putEntry_putEntry first second)

theorem get?_put {entries : List (Bytes × Node)} (there : n.get? dir = some (.directory entries)) (node : Node) :
    (n.put dir name node).get? (dir ++ [name]) = some node := by
  rw [put, get?_modify, there]
  simp [modify, child?, Node.entries, lookup_putEntry, get?]

theorem bare_get?_modify_beside {change : List (Bytes × Node) -> List (Bytes × Node)}
    (keeps : ∀ entries other, other ≠ name -> (change entries).lookup other = entries.lookup other)
    (outside : ¬dir ++ [name] <+: names) :
    ((n.modify change dir).get? names).map bare = (n.get? names).map bare := by
  by_cases inside : dir <+: names
  next =>
    obtain ⟨rest, rfl⟩ := inside
    cases rest with
    | nil => exact bare_get?_modify _ fun _ => by simp
    | cons other rest =>
      have apart : other ≠ name := by
        rintro rfl
        exact outside ⟨rest, by simp⟩
      rw [get?_modify, get?_append]
      cases n.get? dir with
      | none => rfl
      | some d =>
        cases d with
        | directory entries => simp [modify, get?_cons, child?, Node.entries, keeps entries other apart]
        | file | device | link => rfl
  next => exact bare_get?_modify _ fun before => absurd before inside

theorem bare_get?_put {node : Node} (outside : ¬dir ++ [name] <+: names) :
    ((n.put dir name node).get? names).map bare = (n.get? names).map bare :=
  bare_get?_modify_beside (fun entries other apart => by rw [lookup_putEntry, if_neg apart]) outside

theorem bare_get?_remove (outside : ¬dir ++ [name] <+: names) :
    ((n.remove dir name).get? names).map bare = (n.get? names).map bare :=
  bare_get?_modify_beside (fun entries other apart => by rw [lookup_removeEntry, if_neg apart]) outside

theorem get?_remove (below : dir ++ [name] <+: names) : (n.remove dir name).get? names = none := by
  obtain ⟨rest, rfl⟩ := below
  rw [List.append_assoc, remove, get?_modify]
  cases n.get? dir with
  | none => rfl
  | some d =>
    cases d with
    | directory entries => simp [modify, get?_cons, child?, Node.entries, lookup_removeEntry]
    | file | device | link => rfl

theorem get?_below_leaf (leaf : ∀ entries, n ≠ .directory entries) : n.get? (name :: names) = none := by
  cases n with
  | directory entries => exact absurd rfl (leaf entries)
  | file | device | link => rfl

theorem get?_below_file {entries : List (Bytes × Node)} (there : n.get? dir = some (.directory entries)) (content : Bytes)
    (below : dir ++ [name] <+: names) (apart : names ≠ dir ++ [name]) :
    (n.put dir name (.file content)).get? names = none := by
  obtain ⟨rest, rfl⟩ := below
  cases rest with
  | nil => exact absurd (List.append_nil _) apart
  | cons first rest => rw [get?_append, get?_put there, Option.bind_some, get?_below_leaf (by simp)]

theorem bare_get?_put_file {entries : List (Bytes × Node)} (there : n.get? dir = some (.directory entries))
    (outside : ∀ entries, n.get? (dir ++ [name]) ≠ some (.directory entries)) (content : Bytes)
    (apart : names ≠ dir ++ [name]) :
    ((n.put dir name (.file content)).get? names).map bare = (n.get? names).map bare := by
  by_cases below : dir ++ [name] <+: names
  next =>
    rw [get?_below_file there content below apart]
    obtain ⟨rest, rfl⟩ := below
    cases rest with
    | nil => exact absurd (List.append_nil _) apart
    | cons first rest =>
      rw [get?_append]
      cases held : n.get? (dir ++ [name]) with
      | none => rfl
      | some node =>
        rw [Option.bind_some, get?_below_leaf fun entries same => outside entries (same ▸ held)]
  next => exact bare_get?_put below

theorem bare_get?_put_remove {entries : List (Bytes × Node)} (there : n.get? dir = some (.directory entries))
    (content : Bytes) (apart : names ≠ dir ++ [name]) :
    ((n.put dir name (.file content)).get? names).map bare = ((n.remove dir name).get? names).map bare := by
  by_cases below : dir ++ [name] <+: names
  next => rw [get?_below_file there content below apart, get?_remove below]
  next => rw [bare_get?_put below, bare_get?_remove below]

end Node

end StylesheetImports
