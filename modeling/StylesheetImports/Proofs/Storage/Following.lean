import StylesheetImports.Proofs.Storage.Node
import StylesheetImports.Storage.FileTree

set_option autoImplicit false

namespace StylesheetImports

namespace FileTree

structure Enterable (segment : Bytes) : Prop where
  name : Component.ofSegment? segment = some (.name segment)
  short : segment.length ≤ nameLimit

theorem enterable_iff {segment : Bytes} :
    Enterable segment ↔ isIdle segment = false ∧ segment ≠ [dot, dot] ∧ segment.length ≤ nameLimit := by
  constructor
  · rintro ⟨name, short⟩
    unfold Component.ofSegment? at name
    split at name
    next => cases name
    next busy =>
      split at name
      next => cases name
      next noParent => exact ⟨by simpa using busy, noParent, short⟩
  · rintro ⟨busy, noParent, short⟩
    exact ⟨by rw [Component.ofSegment?, if_neg (by simp [busy]), if_neg noParent], short⟩

theorem check_eq_ok {p : Path} :
    check p = .ok () ↔ p.bytes.contains 0 = false ∧ p.bytes ≠ [] ∧ p.bytes.length < pathLimit := by
  unfold check
  split
  next nul => exact ⟨nofun, fun ⟨clean, _⟩ => absurd nul (by rw [clean]; decide)⟩
  next clean =>
    split
    next empty => simp [empty]
    next some =>
      split
      next long => simp [Nat.not_lt.mpr long]
      next short => simpa [some, Nat.not_le.mp short] using clean

/-- The segments `todo` lead from the place `here` to a place with a node. A link in the last segment is followed if
`last` holds. -/
inductive Leads (root : Node) (last : Bool) : Nat -> List Bytes -> List Bytes -> List Bytes × Node -> Prop
  | stop {links : Nat} {place : List Bytes} {node : Node} (there : root.get? place = some node) :
    Leads root last links place [] (place, node)
  | idle {links : Nat} {here : List Bytes} {entries : List (Bytes × Node)} {segment : Bytes} {rest : List Bytes}
    {found : List Bytes × Node} (there : root.get? here = some (.directory entries)) (idle : isIdle segment = true)
    (more : Leads root last links here rest found) : Leads root last links here (segment :: rest) found
  | up {links : Nat} {here : List Bytes} {entries : List (Bytes × Node)} {rest : List Bytes}
    {found : List Bytes × Node} (there : root.get? here = some (.directory entries))
    (more : Leads root last links here.dropLast rest found) : Leads root last links here ([dot, dot] :: rest) found
  | enter {links : Nat} {here : List Bytes} {entries : List (Bytes × Node)} {segment : Bytes} {rest : List Bytes}
    {node : Node} {found : List Bytes × Node} (there : root.get? here = some (.directory entries))
    (name : Enterable segment) (child : root.get? (here ++ [segment]) = some node)
    (solid : ∀ target, node ≠ .link target) (more : Leads root last links (here ++ [segment]) rest found) :
    Leads root last links here (segment :: rest) found
  | link {links : Nat} {here : List Bytes} {entries : List (Bytes × Node)} {segment : Bytes} {rest : List Bytes}
    {target : Path} {found : List Bytes × Node} (there : root.get? here = some (.directory entries))
    (name : Enterable segment) (child : root.get? (here ++ [segment]) = some (.link target))
    (further : rest ≠ [] ∨ last = true)
    (more : Leads root last links (if target.isAbsolute then [] else here) (segments target.bytes ++ rest) found) :
    Leads root last (links + 1) here (segment :: rest) found
  | atLink {links : Nat} {here : List Bytes} {entries : List (Bytes × Node)} {segment : Bytes} {target : Path}
    (there : root.get? here = some (.directory entries)) (name : Enterable segment)
    (child : root.get? (here ++ [segment]) = some (.link target)) (stays : last = false) :
    Leads root last links here [segment] (here ++ [segment], .link target)

variable {root root' : Node} {last : Bool} {links : Nat} {here todo : List Bytes} {found : List Bytes × Node}

section

variable {node : Node} {segment : Bytes} {rest : List Bytes}

theorem follow_nil (there : root.get? here = some node) : follow root last links here [] = .ok (here, node) := by
  rw [follow.eq_def, there]

theorem follow_idle (there : root.get? here = some node) (inside : node.isDirectory = true)
    (idle : isIdle segment = true) :
    follow root last links here (segment :: rest) = follow root last links here rest := by
  rw [follow.eq_def, there]
  simp [inside, idle]

theorem follow_missing (there : root.get? here = some node) (inside : node.isDirectory = true)
    (name : Component.ofSegment? segment = some (.name segment)) (short : segment.length ≤ nameLimit)
    (missing : node.child? segment = none) : follow root last links here (segment :: rest) = .error .notFound := by
  unfold Component.ofSegment? at name
  rw [follow.eq_def, there]
  split at name
  next => cases name
  next idle =>
    split at name
    next => cases name
    next up => simp [inside, idle, up, Nat.not_lt.mpr short, missing]

end

section

variable {entries : List (Bytes × Node)} {segment : Bytes} {rest : List Bytes} (there : root.get? here = some (.directory entries))

include there

theorem child_eq : (Node.directory entries).child? segment = root.get? (here ++ [segment]) := by
  rw [Node.get?_concat, there, Option.bind_some]

theorem follow_up : follow root last links here ([dot, dot] :: rest) = follow root last links here.dropLast rest := by
  have busy : isIdle [dot, dot] = false := by decide
  rw [follow.eq_def, there]
  simp [Node.isDirectory, busy]

theorem follow_enter (name : Enterable segment) {node : Node} (child : root.get? (here ++ [segment]) = some node)
    (solid : ∀ target, node ≠ .link target) :
    follow root last links here (segment :: rest) = follow root last links (here ++ [segment]) rest := by
  obtain ⟨busy, noParent, short⟩ := enterable_iff.mp name
  rw [follow.eq_def, there]
  simp only [Node.isDirectory, busy, noParent, Nat.not_lt.mpr short, child_eq there, child]
  cases node with
  | link target => exact absurd rfl (solid target)
  | file | device | directory => rfl

theorem follow_link (name : Enterable segment) {target : Path}
    (child : root.get? (here ++ [segment]) = some (.link target)) (further : rest ≠ [] ∨ last = true) :
    follow root last (links + 1) here (segment :: rest) =
      follow root last links (if target.isAbsolute then [] else here) (segments target.bytes ++ rest) := by
  obtain ⟨busy, noParent, short⟩ := enterable_iff.mp name
  have open_ : (decide (rest = []) && !last) = false := by
    rcases further with some | followed
    · simp [some]
    · simp [followed]
  rw [follow.eq_def, there]
  simp [Node.isDirectory, busy, noParent, Nat.not_lt.mpr short, child_eq there, child, open_]

theorem follow_atLink (name : Enterable segment) {target : Path}
    (child : root.get? (here ++ [segment]) = some (.link target)) (stays : last = false) :
    follow root last links here [segment] = .ok (here ++ [segment], .link target) := by
  obtain ⟨busy, noParent, short⟩ := enterable_iff.mp name
  rw [follow.eq_def, there]
  simp [Node.isDirectory, busy, noParent, Nat.not_lt.mpr short, child_eq there, child, stays]

end

theorem follow_eq_ok : follow root last links here todo = .ok found ↔ Leads root last links here todo found := by
  constructor
  next =>
    intro followed
    induction links, here, todo using follow.induct root last with
    | case1 links here todo missing =>
      rw [follow.eq_def, missing] at followed
      cases followed
    | case2 links here node there =>
      rw [follow.eq_def, there] at followed
      cases followed
      exact .stop there
    | case3 links here node segment rest there outside =>
      rw [follow.eq_def, there] at followed
      simp [outside] at followed
    | case4 links here node segment rest there inside idle ih =>
      cases node with
      | directory entries => exact .idle there idle (ih (follow_idle there rfl idle ▸ followed))
      | file | device | link => simp [Node.isDirectory] at inside
    | case5 links here node rest there inside busy ih =>
      cases node with
      | directory entries => exact .up there (ih (follow_up there ▸ followed))
      | file | device | link => simp [Node.isDirectory] at inside
    | case6 links here node segment rest there inside busy noParent long =>
      rw [follow.eq_def, there] at followed
      simp [inside, busy, noParent, long] at followed
    | case7 links here node segment rest there inside busy noParent short missing =>
      rw [follow.eq_def, there] at followed
      simp [inside, busy, noParent, short, missing] at followed
    | case8 links here node segment rest there inside busy noParent short target child ends =>
      cases node with
      | directory entries =>
        rw [Bool.and_eq_true, decide_eq_true_eq, Bool.not_eq_true'] at ends
        obtain ⟨rfl, stays⟩ := ends
        have name : Enterable segment := enterable_iff.mpr ⟨by simpa using busy, noParent, Nat.not_lt.mp short⟩
        rw [child_eq there] at child
        rw [follow_atLink there name child stays] at followed
        cases followed
        exact .atLink there name child stays
      | file | device | link => simp [Node.isDirectory] at inside
    | case9 here node segment rest there inside busy noParent short target child further =>
      rw [follow.eq_def, there] at followed
      simp [inside, busy, noParent, short, child, further] at followed
    | case10 here node segment rest there inside busy noParent short target child further links ih =>
      cases node with
      | directory entries =>
        have name : Enterable segment := enterable_iff.mpr ⟨by simpa using busy, noParent, Nat.not_lt.mp short⟩
        have further : rest ≠ [] ∨ last = true := by
          rw [Bool.and_eq_true, decide_eq_true_eq, Bool.not_eq_true', Classical.not_and_iff_not_or_not,
            Bool.not_eq_false] at further
          exact further
        rw [child_eq there] at child
        exact .link there name child further (ih (follow_link there name child further ▸ followed))
      | file | device | link => simp [Node.isDirectory] at inside
    | case11 links here node segment rest there inside busy noParent short child solid found ih =>
      cases node with
      | directory entries =>
        have name : Enterable segment := enterable_iff.mpr ⟨by simpa using busy, noParent, Nat.not_lt.mp short⟩
        have solid : ∀ target, child ≠ .link target := fun target same => solid target same
        rw [child_eq there] at found
        exact .enter there name found solid (ih (follow_enter there name found solid ▸ followed))
      | file | device | link => simp [Node.isDirectory] at inside
  next =>
    intro leads
    induction leads with
    | stop there => rw [follow.eq_def, there]
    | idle there idle more ih => rw [follow_idle there rfl idle, ih]
    | up there more ih => rw [follow_up there, ih]
    | enter there name child solid more ih => rw [follow_enter there name child solid, ih]
    | link there name child further more ih => rw [follow_link there name child further, ih]
    | atLink there name child stays => exact follow_atLink there name child stays

theorem follow_file {content : Bytes} (there : root.get? here = some (.file content)) (some : todo ≠ []) :
    follow root last links here todo = .error .notDirectory := by
  obtain ⟨segment, rest, rfl⟩ := List.exists_cons_of_ne_nil some
  rw [follow.eq_def, there]
  rfl

namespace Leads

theorem get?_of_leads (leads : Leads root last links here todo found) : root.get? found.1 = some found.2 := by
  induction leads with
  | stop there => exact there
  | idle _ _ _ ih | up _ _ ih | enter _ _ _ _ _ ih | link _ _ _ _ _ ih => exact ih
  | atLink there name child stays => exact child

theorem nil_or_directory (leads : Leads root last links here todo found) :
    (todo = [] ∧ found.1 = here) ∨ ∃ entries, root.get? here = some (.directory entries) := by
  cases leads with
  | stop => exact .inl ⟨rfl, rfl⟩
  | idle there | up there | enter there | link there | atLink there => exact .inr ⟨_, there⟩

theorem append {middle : List Bytes × Node} {more : List Bytes} (some : more ≠ [])
    (leads : Leads root true links here todo middle) (further : ∀ links, Leads root last links middle.1 more found) :
    Leads root last links here (todo ++ more) found := by
  induction leads with
  | stop there => exact further _
  | idle there idle _ ih => exact .idle there idle (ih further)
  | up there _ ih => exact .up there (ih further)
  | enter there name child solid _ ih => exact .enter there name child solid (ih further)
  | link there name child _ _ ih =>
    have more := ih further
    rw [List.append_assoc] at more
    exact .link there name child (.inl (by simp [some])) more
  | atLink there name child stays => cases stays

theorem unfollowed (leads : Leads root true links here todo found) :
    Leads root false links here todo found ∨
      ∃ place target, Leads root false links here todo (place, .link target) := by
  induction leads with
  | stop there => exact .inl (.stop there)
  | idle there idle _ ih => exact ih.imp (.idle there idle) fun ⟨place, target, more⟩ => ⟨place, target, .idle there idle more⟩
  | up there _ ih => exact ih.imp (.up there) fun ⟨place, target, more⟩ => ⟨place, target, .up there more⟩
  | enter there name child solid _ ih =>
    exact ih.imp (.enter there name child solid) fun ⟨place, target, more⟩ =>
      ⟨place, target, .enter there name child solid more⟩
  | @link _ _ _ _ rest _ _ there name child _ _ ih =>
    by_cases ends : rest = []
    next =>
      subst ends
      exact .inr ⟨_, _, .atLink there name child rfl⟩
    next =>
      exact ih.imp (.link there name child (.inl ends)) fun ⟨place, target, more⟩ =>
        ⟨place, target, .link there name child (.inl ends) more⟩
  | atLink there name child stays => cases stays

end Leads

variable {t : FileTree} {p : Path}

theorem locate_eq_ok :
    t.locate last p = .ok found ↔ check p = .ok () ∧ Leads t.root last linkLimit (t.origin p) (segments p.bytes) found := by
  rw [← follow_eq_ok, locate]
  cases check p with
  | error e => exact ⟨nofun, nofun⟩
  | ok => exact ⟨fun followed => ⟨rfl, followed⟩, And.right⟩

theorem survey_of_locate {place : List Bytes} {entries : List (Bytes × Node)}
    (there : t.locate true p = .ok (place, .directory entries)) : t.survey p = some (.directory entries) := by
  obtain ⟨usable, leads⟩ := locate_eq_ok.mp there
  rw [survey]
  rcases leads.unfollowed with same | ⟨other, target, linked⟩
  next => rw [locate_eq_ok.mpr ⟨usable, same⟩]
  next =>
    rw [locate_eq_ok.mpr ⟨usable, linked⟩, node, there]
    rfl

section

variable {s : List Bytes} (alike : ∀ names, names ≠ s -> (root'.get? names).map Node.bare = (root.get? names).map Node.bare)

include alike

theorem exists_kept {names : List Bytes} {node : Node} (apart : names ≠ s) (there : root.get? names = some node) :
    ∃ node', root'.get? names = some node' ∧ node'.bare = node.bare := by
  have same := alike names apart
  rwa [there, Option.map_some, Option.map_eq_some_iff] at same

theorem directory_kept {names : List Bytes} {entries : List (Bytes × Node)} (apart : names ≠ s)
    (there : root.get? names = some (.directory entries)) : ∃ entries', root'.get? names = some (.directory entries') := by
  obtain ⟨node, held, same⟩ := exists_kept alike apart there
  cases node with
  | directory entries' => exact ⟨entries', held⟩
  | file | device | link => cases same

theorem link_kept {names : List Bytes} {target : Path} (apart : names ≠ s)
    (there : root.get? names = some (.link target)) : root'.get? names = some (.link target) := by
  obtain ⟨node, held, same⟩ := exists_kept alike apart there
  cases node with
  | link target' => cases same; exact held
  | file | device | directory => cases same

/-- A way that does not end at a changed place is still there, unless it led through a link at that place: if a file
stands there now, everything beyond is out of reach. -/
theorem Leads.kept_or_blocked (outside : ∀ entries, root.get? s ≠ some (.directory entries))
    (leads : Leads root last links here todo found) (elsewhere : found.1 ≠ s) :
    (∃ node, Leads root' last links here todo (found.1, node) ∧ node.bare = found.2.bare) ∨
      (∃ target, root.get? s = some (.link target)) ∧ ∀ content, root'.get? s = some (.file content) ->
        ∀ more last, more ≠ [] -> follow root' last links here (todo ++ more) = .error .notDirectory := by
  have apart {names : List Bytes} {entries : List (Bytes × Node)} (there : root.get? names = some (.directory entries)) :
      names ≠ s := by
    rintro rfl
    exact outside entries there
  induction leads with
  | stop there =>
    obtain ⟨node, held, same⟩ := exists_kept alike elsewhere there
    exact .inl ⟨node, .stop held, same⟩
  | idle there idle more ih =>
    obtain ⟨entries, held⟩ := directory_kept alike (apart there) there
    rcases ih elsewhere with ⟨node, leads, same⟩ | ⟨linked, blocked⟩
    · exact .inl ⟨node, .idle held idle leads, same⟩
    · refine .inr ⟨linked, fun content file more last some => ?_⟩
      rw [List.cons_append, follow_idle held rfl idle, blocked content file more last some]
  | up there more ih =>
    obtain ⟨entries, held⟩ := directory_kept alike (apart there) there
    rcases ih elsewhere with ⟨node, leads, same⟩ | ⟨linked, blocked⟩
    · exact .inl ⟨node, .up held leads, same⟩
    · refine .inr ⟨linked, fun content file more last some => ?_⟩
      rw [List.cons_append, follow_up held, blocked content file more last some]
  | @enter links here _ segment rest node found there name child solid more ih =>
    obtain ⟨entries, held⟩ := directory_kept alike (apart there) there
    have passing : here ++ [segment] ≠ s := by
      -- Nothing that can be entered is at `s`, and the way does not end there.
      rcases more.nil_or_directory with ⟨-, ends⟩ | ⟨entries, inside⟩
      · exact ends ▸ elsewhere
      · exact apart inside
    obtain ⟨node', held', same'⟩ := exists_kept alike passing child
    have solid' (target : Path) : node' ≠ .link target := by
      rintro rfl
      cases node with
      | link target => exact solid target rfl
      | file | device | directory => cases same'
    rcases ih elsewhere with ⟨last, leads, same⟩ | ⟨linked, blocked⟩
    · exact .inl ⟨last, .enter held name held' solid' leads, same⟩
    · refine .inr ⟨linked, fun content file more last some => ?_⟩
      rw [List.cons_append, follow_enter held name held' solid', blocked content file more last some]
  | @link links here _ segment rest target found there name child further more ih =>
    obtain ⟨entries, held⟩ := directory_kept alike (apart there) there
    by_cases here' : here ++ [segment] = s
    next =>
      refine .inr ⟨⟨target, here' ▸ child⟩, fun content file more last some => ?_⟩
      rw [List.cons_append, follow_enter held name (here' ▸ file) (by simp)]
      exact follow_file (here' ▸ file) (by simp [some])
    next =>
      have held' := link_kept alike here' child
      rcases ih elsewhere with ⟨node, leads, same⟩ | ⟨linked, blocked⟩
      · exact .inl ⟨node, .link held name held' further leads, same⟩
      · refine .inr ⟨linked, fun content file more last some => ?_⟩
        rw [List.cons_append, follow_link held name held' (.inl (by simp [some])), ← List.append_assoc,
          blocked content file more last some]
  | atLink there name child stays =>
    obtain ⟨entries, held⟩ := directory_kept alike (apart there) there
    exact .inl ⟨_, .atLink held name (link_kept alike elsewhere child) stays, rfl⟩

theorem Leads.kept (outside : ∀ entries, root.get? s ≠ some (.directory entries))
    (unlinked : ∀ target, root.get? s ≠ some (.link target)) (leads : Leads root last links here todo found)
    (elsewhere : found.1 ≠ s) : ∃ node, Leads root' last links here todo (found.1, node) ∧ node.bare = found.2.bare := by
  rcases leads.kept_or_blocked alike outside elsewhere with still | ⟨⟨target, linked⟩, -⟩
  · exact still
  · exact absurd linked (unlinked target)

end

end FileTree

end StylesheetImports
