import StylesheetImports.Proofs.Path.Spelling
import StylesheetImports.Proofs.Storage.Disk
import StylesheetImports.Proofs.Storage.Replacing

set_option autoImplicit false

namespace StylesheetImports

open Component

namespace FileTree

def startingAt (t : FileTree) (place : List Bytes) : FileTree :=
  { t with start := place }

variable {t : FileTree} {place : List Bytes} {p : Path}

@[simp] theorem inSlot?_startingAt (s : Slot) : (t.startingAt place).inSlot? s = t.inSlot? s := rfl

@[simp] theorem putSlot_startingAt (s : Slot) (n : Node) :
    (t.startingAt place).putSlot s n = (t.putSlot s n).startingAt place := rfl

theorem fill_startingAt (there : List Bytes) (content : Bytes) :
    (t.startingAt place).fill there content = (t.fill there content).startingAt place := by
  have root : (t.startingAt place).root = t.root := rfl
  unfold fill
  rw [root]
  cases t.root.get? there with
  | none => rfl
  | some node => cases node <;> rfl

theorem append_startingAt (there : List Bytes) (bytes : Bytes) :
    (t.startingAt place).append there bytes = (t.append there bytes).startingAt place := by
  have root : (t.startingAt place).root = t.root := rfl
  unfold append
  rw [root]
  cases t.root.get? there with
  | none => rfl
  | some node =>
    cases node with
    | file content => exact fill_startingAt there _
    | device | link | directory => rfl

@[simp] theorem removeSlot_startingAt (s : Slot) :
    (t.startingAt place).removeSlot s = (t.removeSlot s).startingAt place := rfl

section

variable (absolute : p.isAbsolute = true)

include absolute

theorem origin_startingAt : (t.startingAt place).origin p = t.origin p := by
  rw [origin, origin, if_pos absolute, if_pos absolute]

theorem locate_startingAt (last : Bool) : (t.startingAt place).locate last p = t.locate last p := by
  rw [locate, locate, origin_startingAt absolute]
  rfl

theorem node_startingAt : (t.startingAt place).node p = t.node p := by
  rw [node, node, locate_startingAt absolute]

theorem read_startingAt : (t.startingAt place).read p = t.read p := by
  rw [read, read, node_startingAt absolute]

theorem list_startingAt : (t.startingAt place).list p = t.list p := by
  rw [list, list, locate_startingAt absolute]
  rfl

theorem isFile_startingAt : (t.startingAt place).isFile p = t.isFile p := by
  rw [isFile, isFile, node_startingAt absolute]

theorem isDirectory_startingAt : (t.startingAt place).isDirectory p = t.isDirectory p := by
  rw [isDirectory, isDirectory, node_startingAt absolute]

theorem survey_startingAt : (t.startingAt place).survey p = t.survey p := by
  rw [survey, survey, locate_startingAt absolute, node_startingAt absolute]

theorem slot_startingAt : (t.startingAt place).slot p = t.slot p := by
  rw [slot, slot, origin_startingAt absolute]
  rfl

theorem target_startingAt : (t.startingAt place).target p = t.target p := by
  rw [target, target, slot_startingAt absolute]
  cases t.slot p with
  | error e => rfl
  | ok s => simp only [Bind.bind, Except.bind, inSlot?_startingAt, locate_startingAt absolute]

theorem rename_startingAt {q : Path} (absolute' : q.isAbsolute = true) :
    (t.startingAt place).rename p q = (t.rename p q).map (·.startingAt place) := by
  rw [rename, rename, slot_startingAt absolute, slot_startingAt absolute']
  cases t.slot p with
  | error e => rfl
  | ok s =>
    cases t.slot q with
    | error e => rfl
    | ok d =>
      simp only [Bind.bind, Except.bind, inSlot?_startingAt, removeSlot_startingAt, putSlot_startingAt]
      cases t.inSlot? s with
      | none => rfl
      | some n =>
        by_cases closed : d.asDirectory = true <;>
          by_cases held : ((t.inSlot? d).map Node.isDirectory).getD false = true <;> simp [closed, held, Except.map]

theorem removeFile_startingAt :
    (t.startingAt place).removeFile p = (t.removeFile p).map (·.startingAt place) := by
  rw [removeFile, removeFile, slot_startingAt absolute]
  cases t.slot p with
  | error e => rfl
  | ok s =>
    simp only [Bind.bind, Except.bind, inSlot?_startingAt, removeSlot_startingAt]
    cases t.inSlot? s with
    | none => rfl
    | some n => cases n <;> rfl

theorem createDirectory_startingAt :
    (t.startingAt place).createDirectory p = (t.createDirectory p).map (·.startingAt place) := by
  rw [createDirectory, createDirectory, slot_startingAt absolute]
  cases t.slot p with
  | error e => rfl
  | ok s =>
    by_cases there : (t.inSlot? s).isSome = true <;>
      simp [Bind.bind, Except.bind, inSlot?_startingAt, putSlot_startingAt, there, Except.map]

end

theorem createEach_startingAt {dirs : List Path} (absolute : ∀ dir ∈ dirs, dir.isAbsolute = true) :
    (t.startingAt place).createEach dirs = ((t.createEach dirs).1, (t.createEach dirs).2.startingAt place) := by
  induction dirs generalizing t with
  | nil => rfl
  | cons dir dirs ih =>
    obtain ⟨first, others⟩ := List.forall_mem_cons.mp absolute
    rw [createEach, createEach, isDirectory_startingAt first, createDirectory_startingAt first]
    split
    next => exact ih others
    next =>
      cases t.createDirectory dir with
      | error e => rfl
      | ok t => exact ih others

-- There is no link anywhere in the tree.
def Linkless (root : Node) : Prop :=
  ∀ names target, root.get? names ≠ some (.link target)

theorem linkless_leaf {n : Node} (leaf : ∀ entries, n ≠ .directory entries) (solid : ∀ target, n ≠ .link target) :
    Linkless n := by
  intro names target
  cases names with
  | nil => exact fun held => solid target (Option.some.inj held)
  | cons name names =>
    rw [Node.get?_below_leaf leaf]
    exact nofun

theorem linkless_directory {entries : List (Bytes × Node)} (inside : ∀ entry ∈ entries, Linkless entry.2) :
    Linkless (.directory entries) := by
  intro names target
  cases names with
  | nil => exact nofun
  | cons name names =>
    rw [Node.get?_cons]
    intro held
    obtain ⟨child, found, held⟩ := Option.bind_eq_some_iff.mp held
    exact inside (name, child) (Node.mem_of_lookup found) names target held

-- The names of a place: each stands in a path as a step of its own, and is no longer than a name
-- can be.
def Named (names : List Bytes) : Prop :=
  ∀ name ∈ names, IsName name ∧ name.length ≤ nameLimit

section

variable {root : Node} {last : Bool} {links : Nat} {here todo : List Bytes} {found : List Bytes × Node}
  (linkless : Linkless root)

include linkless

theorem Leads.fold (named : Named here) (free : ∀ segment ∈ todo, slash ∉ segment)
    (leads : Leads root last links here todo found) :
    Named found.1 ∧ (todo.filterMap ofSegment?).foldl push (here.reverse.map .name ++ [.root]) =
      found.1.reverse.map .name ++ [.root] := by
  induction leads with
  | stop there => exact ⟨named, rfl⟩
  | @idle links here entries segment rest found there idle more ih =>
    have none : ofSegment? segment = none := by rw [ofSegment?, if_pos idle]
    rw [List.filterMap_cons_none none]
    exact ih named fun segment mem => free segment (List.mem_cons_of_mem _ mem)
  | @up links here entries rest found there more ih =>
    have parent : ofSegment? [dot, dot] = some .parent := by decide
    obtain ⟨named', same⟩ := ih (fun name mem => named name (List.dropLast_subset _ mem))
      fun segment mem => free segment (List.mem_cons_of_mem _ mem)
    refine ⟨named', ?_⟩
    rw [List.filterMap_cons_some parent, List.foldl_cons, ← same]
    rcases List.eq_nil_or_concat here with rfl | ⟨before, name, rfl⟩
    · rfl
    · simp [push]
  | @enter links here entries segment rest node found there name child solid more ih =>
    obtain ⟨first, others⟩ := List.forall_mem_cons.mp free
    have named : Named (here ++ [segment]) := by
      intro other mem
      rcases List.mem_append.mp mem with before | last
      · exact named other before
      · rw [List.mem_singleton.mp last]
        exact ⟨⟨first, name.name⟩, name.short⟩
    obtain ⟨named', same⟩ := ih named others
    refine ⟨named', ?_⟩
    rw [List.filterMap_cons_some name.name, List.foldl_cons, push_name, ← same]
    simp
  | link _ _ child => exact absurd child (linkless _ _)
  | atLink _ _ child => exact absurd child (linkless _ _)

theorem leads_names {names : List Bytes} {node : Node} (named : Named names)
    (there : root.get? (here ++ names) = some node) : Leads root last links here names (here ++ names, node) := by
  induction names generalizing here with
  | nil =>
    rw [List.append_nil] at there ⊢
    exact .stop there
  | cons name names ih =>
    obtain ⟨⟨isName, short⟩, others⟩ := List.forall_mem_cons.mp named
    rw [List.append_cons] at there ⊢
    obtain ⟨child, held, -⟩ := Option.bind_eq_some_iff.mp (Node.get?_append root (here ++ [name]) names ▸ there)
    obtain ⟨dir, inside, entry⟩ := Option.bind_eq_some_iff.mp (Node.get?_concat root here name ▸ held)
    cases dir with
    | directory entries =>
      refine .enter inside ⟨isName.2, short⟩ held (fun target same => ?_) (ih others there)
      exact linkless _ target (same ▸ held)
    | file | device | link => cases entry

theorem follow_append (more : List Bytes) :
    follow root last links here (todo ++ more) =
      (follow root true links here todo).bind fun found => follow root last links found.1 more := by
  have solid {node : Node} {here : List Bytes} {segment : Bytes} {target : Path} (there : root.get? here = some node)
      (child : node.child? segment = some (.link target)) : False := by
    refine linkless (here ++ [segment]) target ?_
    rw [Node.get?_concat, there]
    exact child
  -- The faults are compared as well, so the cases are those of the function and not those of the ways that arrive.
  induction links, here, todo using follow.induct root true with
  | case1 links here todo missing =>
    rw [follow.eq_def, missing, follow.eq_def root true, missing]
    rfl
  | case2 links here node there => rw [List.nil_append, follow_nil there]; rfl
  | case3 links here node segment rest there outside =>
    rw [List.cons_append, follow.eq_def, there, follow.eq_def root true, there]
    simp [outside, Except.bind]
  | case4 links here node segment rest there inside idle ih =>
    cases node with
    | directory entries => rw [List.cons_append, follow_idle there rfl idle, follow_idle there rfl idle, ih]
    | file | device | link => simp [Node.isDirectory] at inside
  | case5 links here node rest there inside busy ih =>
    cases node with
    | directory entries => rw [List.cons_append, follow_up there, follow_up there, ih]
    | file | device | link => simp [Node.isDirectory] at inside
  | case6 links here node segment rest there inside busy noParent long =>
    rw [List.cons_append, follow.eq_def, there, follow.eq_def root true, there]
    simp [inside, busy, noParent, long, Except.bind]
  | case7 links here node segment rest there inside busy noParent short missing =>
    rw [List.cons_append, follow.eq_def, there, follow.eq_def root true, there]
    simp [inside, busy, noParent, short, missing, Except.bind]
  | case8 links here node segment rest there inside busy noParent short target child => exact (solid there child).elim
  | case9 here node segment rest there inside busy noParent short target child => exact (solid there child).elim
  | case10 here node segment rest there inside busy noParent short target child => exact (solid there child).elim
  | case11 links here node segment rest there inside busy noParent short child apart found ih =>
    cases node with
    | directory entries =>
      have name : Enterable segment := enterable_iff.mpr ⟨by simpa using busy, noParent, Nat.not_lt.mp short⟩
      have apart (target : Path) : child ≠ .link target := fun same => apart target same
      rw [child_eq there] at found
      rw [List.cons_append, follow_enter there name found apart, follow_enter there name found apart, ih]
    | file | device | link => simp [Node.isDirectory] at inside

end

theorem check_normalize (absolute : p.isAbsolute = true) (usable : check p = .ok ()) : check p.normalize = .ok () := by
  obtain ⟨clean, some, short⟩ := check_eq_ok.mp usable
  refine check_eq_ok.mpr ⟨?_, ?_, Nat.lt_of_le_of_lt (Path.sublist_normalize absolute).length_le short⟩
  · rw [Bool.eq_false_iff, ne_eq, List.contains_iff_mem] at clean ⊢
    exact fun mem => clean ((Path.sublist_normalize absolute).subset mem)
  · intro empty
    have still := Path.isAbsolute_normalize absolute
    simp [Path.isAbsolute, empty] at still

theorem check_join {q : Path} (usable : check p = .ok ()) (clean : 0 ∉ q.bytes)
    (short : (p.join q).bytes.length < pathLimit) : check (p.join q) = .ok () := by
  obtain ⟨clean', some, -⟩ := check_eq_ok.mp usable
  rw [Bool.eq_false_iff, ne_eq, List.contains_iff_mem] at clean'
  have apart : (0 : UInt8) ≠ slash := by decide
  refine check_eq_ok.mpr ⟨?_, ?_, short⟩
  · rw [Bool.eq_false_iff, ne_eq, List.contains_iff_mem, Path.join]
    split_ifs <;> simp [clean, clean', apart]
  · rw [Path.join]
    split_ifs with absolute
    · intro empty
      simp [Path.isAbsolute, empty] at absolute
    · simp [some]
    · simp

def pathOf (place : List Bytes) : Path :=
  { bytes := slash :: joinSegments place }

theorem isAbsolute_pathOf (place : List Bytes) : (pathOf place).isAbsolute = true := rfl

theorem pathOf_eq (place : List Bytes) : pathOf place = Path.ofComponents (.root :: place.map .name) := by
  have texts : (place.map Component.name).map Component.text = place := by
    rw [List.map_map]
    exact List.map_id place
  rw [Path.ofComponents, texts]
  rfl

section

variable {last : Bool} {node : Node} (linkless : Linkless t.root) (absolute : p.isAbsolute = true)

include linkless absolute

theorem normalize_of_locate (there : t.locate last p = .ok (place, node)) : Named place ∧ p.normalize = pathOf place := by
  obtain ⟨-, leads⟩ := locate_eq_ok.mp there
  rw [origin, if_pos absolute] at leads
  have free : ∀ segment ∈ segments p.bytes, slash ∉ segment := by
    intro segment mem inside
    have apart := not_separates_of_mem_pieces mem inside
    simp at apart
  obtain ⟨named, same⟩ := leads.fold linkless (fun _ mem => absurd mem List.not_mem_nil) free
  refine ⟨named, ?_⟩
  have steps : fold p.components = .root :: place.map .name := by
    have root : push [] .root = [].reverse.map .name ++ [.root] := rfl
    rw [Path.components_of_absolute absolute, Component.fold, List.foldl_cons, root, stepsOf, same]
    simp
  rw [Path.normalize, steps, pathOf_eq]

theorem locate_normalize (there : t.locate last p = .ok (place, node)) : t.locate last p.normalize = .ok (place, node) := by
  obtain ⟨named, normal⟩ := normalize_of_locate linkless absolute there
  obtain ⟨usable, leads⟩ := locate_eq_ok.mp there
  have still := Path.isAbsolute_normalize absolute
  refine locate_eq_ok.mpr ⟨check_normalize absolute usable, ?_⟩
  rw [origin, if_pos absolute] at leads
  rw [origin, if_pos still, normal]
  -- Both paths begin with a slash, which the root must be a directory for.
  obtain ⟨entries, root⟩ : ∃ entries, t.root.get? [] = some (.directory entries) := by
    obtain ⟨rest, written⟩ := Path.exists_bytes absolute
    refine leads.nil_or_directory.resolve_left fun nothing => ?_
    exact pieces_ne_nil _ _ nothing.1
  have idle : isIdle [] = true := by decide
  by_cases top : place = []
  next =>
    subst top
    have cut : segments (pathOf []).bytes = [[], []] := by decide
    obtain rfl : node = .directory entries := Option.some.inj (leads.get?_of_leads.symm.trans root)
    rw [cut]
    exact .idle root idle (.idle root idle (.stop root))
  next =>
    have cut : segments (pathOf place).bytes = [] :: place := by
      have first : segments (pathOf place).bytes = [] :: segments (joinSegments place) := by
        exact pieces_append_cons (by simp) [] (joinSegments place)
      have free : ∀ name ∈ place, slash ∉ name := fun name mem => (named name mem).1.1
      rw [first, joinSegments, segments, pieces_intercalate slash top free]
    rw [cut]
    exact .idle root idle (leads_names linkless named leads.get?_of_leads)

end

theorem isFile_eq (t : FileTree) (p : Path) : t.isFile p = (t.node p).toOption.any Node.isFile := by
  rw [isFile]
  cases t.node p <;> rfl

theorem read_eq_of_node {q : Path} (same : (t.node p).toOption = (t.node q).toOption) (file : t.isFile p = true) :
    t.read p = t.read q := by
  rw [isFile_eq] at file
  rw [FileTree.read, FileTree.read]
  cases here : t.node p with
  | error e =>
    rw [here] at file
    cases file
  | ok node =>
    cases there : t.node q with
    | error e =>
      rw [here, there] at same
      cases same
    | ok other =>
      rw [here, there] at same
      cases same
      rfl

theorem follow_of_closed {root : Node} (linkless : Linkless root) {links : Nat} {here before : List Bytes}
    {entries : List (Bytes × Node)}
    (closed : follow root true links here (before ++ [[]]) = .ok (place, .directory entries)) :
    follow root true links here before = .ok (place, .directory entries) := by
  rw [follow_append linkless] at closed
  cases reached : follow root true links here before with
  | error e =>
    rw [reached] at closed
    cases closed
  | ok found =>
    obtain ⟨middle, node⟩ := found
    have held : root.get? middle = some node := (follow_eq_ok.mp reached).get?_of_leads
    have further : follow root true links middle [[]] = .ok (place, .directory entries) := by rwa [reached] at closed
    obtain ⟨inner, directory⟩ := (follow_eq_ok.mp further).nil_or_directory.resolve_left (by simp)
    rw [follow_idle directory rfl (by decide), follow_nil directory] at further
    cases further
    exact congrArg (fun node => Except.ok (place, node)) (Option.some.inj (held.symm.trans directory))

section

variable (linkless : Linkless t.root)

include linkless

theorem toOption_node_join {entries : List (Bytes × Node)} {q : Path}
    (there : t.locate true p = .ok (place, .directory entries)) (name : IsName q.bytes) (short : q.bytes.length ≤ nameLimit)
    (usable : check (p.join q) = .ok ()) : (t.node (p.join q)).toOption = t.root.get? (place ++ [q.bytes]) := by
  obtain ⟨usable', leads⟩ := locate_eq_ok.mp there
  have inside : t.root.get? place = some (.directory entries) := leads.get?_of_leads
  have enterable : Enterable q.bytes := ⟨name.2, short⟩
  have origin : t.origin (p.join q) = t.origin p := by
    rw [FileTree.origin, FileTree.origin, Path.isAbsolute_join_of_relative (Path.isAbsolute_of_isName name)]
  obtain ⟨before, ends, whole⟩ := Path.segments_join (check_eq_ok.mp usable').2.1 name
  have reached : follow t.root true linkLimit (t.origin p) before = .ok (place, .directory entries) := by
    have along := follow_eq_ok.mpr leads
    rcases ends with same | same
    · rwa [same] at along
    · exact follow_of_closed linkless (same ▸ along)
  have located : t.locate true (p.join q) = follow t.root true linkLimit place [q.bytes] := by
    rw [locate, usable, origin, whole]
    change follow t.root true linkLimit (t.origin p) (before ++ [q.bytes]) = _
    rw [follow_append linkless, reached]
    rfl
  rw [FileTree.node, located]
  cases held : t.root.get? (place ++ [q.bytes]) with
  | none =>
    rw [follow_missing inside rfl enterable.name short (by rw [child_eq inside, held])]
    rfl
  | some node =>
    have solid (target : Path) : node ≠ .link target := fun same => linkless _ target (same ▸ held)
    rw [follow_enter inside enterable held solid, follow_nil held]
    rfl

theorem join_congr {a b q : Path} {entries entries' : List (Bytes × Node)}
    (there : t.locate true a = .ok (place, .directory entries)) (there' : t.locate true b = .ok (place, .directory entries'))
    (name : IsName q.bytes) (short : q.bytes.length ≤ nameLimit) (clean : 0 ∉ q.bytes)
    (fits : t.isFile (a.join q) = true ∨ t.isFile (b.join q) = true ->
      (a.join q).bytes.length < pathLimit ∧ (b.join q).bytes.length < pathLimit) :
    t.isFile (a.join q) = t.isFile (b.join q) ∧
      (t.isFile (a.join q) = true -> t.read (a.join q) = t.read (b.join q)) := by
  by_cases file : t.isFile (a.join q) = true ∨ t.isFile (b.join q) = true
  next =>
    obtain ⟨fitting, fitting'⟩ := fits file
    have joined := check_join (locate_eq_ok.mp there).1 clean fitting
    have joined' := check_join (locate_eq_ok.mp there').1 clean fitting'
    have same : (t.node (a.join q)).toOption = (t.node (b.join q)).toOption := by
      rw [toOption_node_join linkless there name short joined, toOption_node_join linkless there' name short joined']
    refine ⟨?_, read_eq_of_node same⟩
    rw [isFile_eq, isFile_eq, same]
  next =>
    obtain ⟨no, no'⟩ := not_or.mp file
    rw [Bool.not_eq_true] at no no'
    exact ⟨no.trans no'.symm, fun file => absurd file (by simp [no])⟩

end

/-- The action does the same to a tree with another start. -/
def Startless {A : Type} (action : StateM FileTree A) : Prop :=
  ∀ (t : FileTree) (place : List Bytes),
    action.run (t.startingAt place) = ((action.run t).1, (action.run t).2.startingAt place)

theorem Startless.bind_run {A B : Type} {action : StateM FileTree A} {next : A -> StateM FileTree B}
    (first : Startless action) (later : ∀ t, Startless (next (action.run t).1)) : Startless (action >>= next) := by
  intro t place
  change (next (action.run (t.startingAt place)).1).run (action.run (t.startingAt place)).2 = _
  rw [first]
  exact later t _ place

theorem Startless.bind {A B : Type} {action : StateM FileTree A} {next : A -> StateM FileTree B}
    (first : Startless action) (later : ∀ a, Startless (next a)) : Startless (action >>= next) :=
  first.bind_run fun _ => later _

theorem startless_pure {A : Type} (a : A) : Startless (pure a) :=
  fun _ _ => rfl

theorem startless_change {f : FileTree -> Except FileFault FileTree}
    (same : ∀ t place, f (t.startingAt place) = (f t).map (·.startingAt place)) : Startless (change f) := by
  intro t place
  have ran (t : FileTree) : (change f).run t = change f t := rfl
  rw [ran, ran, change, change, same]
  cases f t <;> rfl

theorem startless_createDirectories (mark : String) (absolute : p.isAbsolute = true) :
    Startless ((disk mark).createDirectories p) := by
  intro t place
  refine createEach_startingAt fun dir mem => ?_
  rw [Path.isAbsolute_of_mem_ancestors (List.mem_of_mem_filter (List.mem_reverse.mp mem)), absolute]

theorem startless_create (absolute : p.isAbsolute = true) (w : Mishaps) : Startless (create w p) := by
  intro t place
  have ran (t : FileTree) : (create w p).run t = create w p t := rfl
  rw [ran, ran, create, create, target_startingAt absolute]
  cases t.target p with
  | error e => rfl
  | ok there => exact congrArg (Prod.mk _) (fill_startingAt there [])

theorem run_create (w : Mishaps) (p : Path) (t : FileTree) :
    ((create w p).run t).1 = (t.target p).map (openFile w p) := by
  change (create w p t).1 = _
  rw [create]
  cases t.target p <;> rfl

theorem startless_openFile (w : Mishaps) (p : Path) (there : List Bytes) (bytes : Bytes) :
    Startless ((openFile w p there).write bytes) :=
  fun _ _ => congrArg (Prod.mk _) (append_startingAt there _)

theorem startless_store (mark : String) (absolute : p.isAbsolute = true) (content : Bytes) :
    Startless ((disk mark).store p content) := by
  unfold Disk.store
  refine (startless_create absolute .none).bind_run fun t => ?_
  rw [run_create]
  cases t.target p with
  | error e => exact startless_pure _
  | ok there =>
    refine (startless_openFile .none p there content).bind fun written => ?_
    cases written <;> exact startless_pure _

theorem isAbsolute_temporary (mark : String) {p dir : Path} (absolute : p.isAbsolute = true) (parent : p.parent? = some dir) :
    (Disk.temporary mark p).isAbsolute = true := by
  rw [Disk.temporary, parent, Option.getD_some]
  exact Path.isAbsolute_join ((Path.isAbsolute_parent? parent).trans absolute) _

theorem startless_replace (mark : String) {p dir : Path} (absolute : p.isAbsolute = true) (parent : p.parent? = some dir)
    (content : Bytes) : Startless ((disk mark).replace p content) := by
  have beside := isAbsolute_temporary mark absolute parent
  have removed : Startless (change (·.removeFile (Disk.temporary mark p))) :=
    startless_change fun _ _ => removeFile_startingAt beside
  unfold Disk.replace
  refine Startless.bind_run (startless_pure mark) fun _ => (startless_store mark beside content).bind fun stored => ?_
  cases stored with
  | error e => exact startless_pure _
  | ok =>
    refine (startless_change fun _ _ => rename_startingAt beside absolute).bind fun named => ?_
    cases named with
    | error e => exact removed.bind fun _ => startless_pure _
    | ok => exact startless_pure _

theorem run_replace_nameless (mark : String) {t : FileTree} {p : Path} (nameless : writtenName p = []) (content : Bytes)
    (free : ∀ s, t.slot (Disk.temporary mark p) = .ok s -> t.inSlot? s = none) :
    ∃ e, ((disk mark).replace p content).run t = (.error e, t) := by
  have refused : ¬∃ d, t.Takes p d := by
    rintro ⟨d, takes⟩
    have gives := slot_eq_ok.mp takes.slot
    have name := gives.name
    rw [← gives.named, nameless] at name
    exact absurd name.name (by decide)
  have created : Mishaps.none.create (Disk.temporary mark p) = .none := rfl
  by_cases beside : ∃ s, t.Takes (Disk.temporary mark p) s
  next =>
    obtain ⟨s, takes⟩ := beside
    exact run_replace_unnamed created takes (free s takes.slot) rfl rfl (.inr refused)
  next =>
    obtain ⟨e, stored⟩ := run_store_refused mark content created beside free
    exact ⟨e, run_replace_unstored stored⟩

end FileTree

end StylesheetImports
