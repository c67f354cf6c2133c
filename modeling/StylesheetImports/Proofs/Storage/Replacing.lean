import StylesheetImports.Proofs.Storage.Following
import StylesheetImports.Storage.Disk

set_option autoImplicit false

namespace StylesheetImports

namespace FileTree

-- The segments of a path without the empty ones at its end.
def writtenSegments (p : Path) : List Bytes :=
  ((segments p.bytes).reverse.dropWhile (· = [])).reverse

-- The last of them.
def writtenName (p : Path) : Bytes :=
  (writtenSegments p).getLast?.getD []

/-- What it takes for a path to give a name in a directory. -/
structure Gives (t : FileTree) (p : Path) (s : Slot) : Prop where
  usable : check p = .ok ()
  leads : ∃ entries, Leads t.root true linkLimit (t.origin p) (writtenSegments p).dropLast
    (s.directory, .directory entries)
  named : writtenName p = s.name
  name : Enterable s.name
  asDirectory : s.asDirectory = decide (writtenSegments p ≠ segments p.bytes)

variable {t t' : FileTree} {p : Path} {s d : Slot}

theorem slot_of_follow {directory : List Bytes} {node : Node} (usable : check p = .ok ())
    (followed : follow t.root true linkLimit (t.origin p) (writtenSegments p).dropLast = .ok (directory, node)) :
    t.slot p =
      if !node.isDirectory then .error .notDirectory
      else if isIdle (writtenName p) || writtenName p = [dot, dot] then .error .busy
      else if nameLimit < (writtenName p).length then .error .nameTooLong
      else .ok { directory, name := writtenName p, asDirectory := writtenSegments p ≠ segments p.bytes } := by
  unfold FileTree.slot
  rw [usable]
  change (follow t.root true linkLimit (t.origin p) (writtenSegments p).dropLast >>= _) = _
  rw [followed]
  rfl

theorem slot_eq_ok : t.slot p = .ok s ↔ t.Gives p s := by
  constructor
  next =>
    intro slot
    cases usable : check p with
    | error e => rw [FileTree.slot, usable] at slot; cases slot
    | ok =>
      cases followed : follow t.root true linkLimit (t.origin p) (writtenSegments p).dropLast with
      | error e =>
        rw [FileTree.slot, usable] at slot
        change (follow t.root true linkLimit (t.origin p) (writtenSegments p).dropLast >>= _) = _ at slot
        rw [followed] at slot
        cases slot
      | ok found =>
        rw [slot_of_follow usable followed] at slot
        split at slot
        next => cases slot
        next inside =>
          obtain ⟨entries, directory⟩ : ∃ entries, found.2 = .directory entries := by
            cases node : found.2 with
            | directory entries => exact ⟨entries, rfl⟩
            | file | device | link => rw [node] at inside; simp [Node.isDirectory] at inside
          split at slot
          next => cases slot
          next busy =>
            split at slot
            next => cases slot
            next short =>
              cases slot
              rw [Bool.or_eq_true, not_or, decide_eq_true_eq, Bool.not_eq_true] at busy
              exact ⟨usable, ⟨entries, directory ▸ follow_eq_ok.mp followed⟩, rfl,
                enterable_iff.mpr ⟨busy.1, busy.2, Nat.not_lt.mp short⟩, rfl⟩
  next =>
    rintro ⟨usable, ⟨entries, leads⟩, named, name, asDirectory⟩
    obtain ⟨busy, noParent, short⟩ := enterable_iff.mp name
    rw [slot_of_follow usable (follow_eq_ok.mpr leads), named]
    simp [Node.isDirectory, busy, noParent, Nat.not_lt.mpr short, ← asDirectory]

theorem exists_directory (slot : t.slot p = .ok s) : ∃ entries, t.root.get? s.directory = some (.directory entries) := by
  obtain ⟨entries, leads⟩ := (slot_eq_ok.mp slot).leads
  exact ⟨entries, leads.get?_of_leads⟩

theorem slot_kept {place : List Bytes} (start : t'.start = t.start)
    (alike : ∀ names, names ≠ place -> (t'.root.get? names).map Node.bare = (t.root.get? names).map Node.bare)
    (outside : ∀ entries, t.root.get? place ≠ some (.directory entries))
    (unlinked : ∀ target, t.root.get? place ≠ some (.link target)) (slot : t.slot p = .ok s) : t'.slot p = .ok s := by
  obtain ⟨usable, ⟨entries, leads⟩, named, name, asDirectory⟩ := slot_eq_ok.mp slot
  have elsewhere : s.directory ≠ place := by
    rintro rfl
    exact outside entries leads.get?_of_leads
  obtain ⟨node, leads', bare⟩ := leads.kept alike outside unlinked elsewhere
  obtain ⟨entries', rfl⟩ := directory_kept alike elsewhere leads.get?_of_leads |>.imp fun _ held =>
    Option.some_inj.mp (leads'.get?_of_leads.symm.trans held)
  have origin : t'.origin p = t.origin p := by rw [FileTree.origin, FileTree.origin, start]
  exact slot_eq_ok.mpr ⟨usable, ⟨entries', origin ▸ leads'⟩, named, name, asDirectory⟩

theorem alike_putSlot (slot : t.slot p = .ok s) (outside : ∀ entries, t.inSlot? s ≠ some (.directory entries))
    (content : Bytes) (names : List Bytes) (apart : names ≠ s.place) :
    ((t.putSlot s (.file content)).root.get? names).map Node.bare = (t.root.get? names).map Node.bare := by
  obtain ⟨entries, there⟩ := exists_directory slot
  exact Node.bare_get?_put_file there outside content apart

theorem inSlot?_putSlot (slot : t.slot p = .ok s) (content : Bytes) :
    (t.putSlot s (.file content)).inSlot? s = some (.file content) := by
  obtain ⟨entries, there⟩ := exists_directory slot
  exact Node.get?_put there _

theorem slot_putSlot {q : Path} (slot : t.slot q = .ok s) (absent : t.inSlot? s = none) (content : Bytes) :
    (t.putSlot s (.file content)).slot p = .ok d ↔ t.slot p = .ok d := by
  have alike := alike_putSlot slot (by simp [absent]) content
  have now : (t.putSlot s (.file content)).root.get? s.place = some (.file content) := inSlot?_putSlot slot content
  have before : t.root.get? s.place = none := absent
  constructor
  · exact slot_kept rfl (fun names apart => (alike names apart).symm) (by simp [now]) (by simp [now])
  · exact slot_kept rfl alike (by simp [before]) (by simp [before])

theorem removeSlot_putSlot (absent : t.inSlot? s = none) (node : Node) : (t.putSlot s node).removeSlot s = t := by
  rw [putSlot, removeSlot, Node.remove_put absent]

/-- What it takes for a file to be put at a path. -/
structure Takes (t : FileTree) (p : Path) (d : Slot) : Prop where
  slot : t.slot p = .ok d
  asFile : d.asDirectory = false
  outside : ∀ entries, t.inSlot? d ≠ some (.directory entries)

/-- The path does not lead through what is in its own slot: it leads there as well when nothing is in it. -/
def Direct (t : FileTree) (p : Path) (d : Slot) : Prop :=
  (t.removeSlot d).slot p = .ok d

/-- `after` is the tree `t` except that a file is in the slot `d` of the path `p`. It is what is read at the path if the
path is direct. Else the path led through a link that is the file now, and leads nowhere. -/
structure Replaced (t after : FileTree) (p : Path) (d : Slot) (content : Bytes) : Prop where
  start : after.start = t.start
  file : after.root.get? d.place = some (.file content)
  elsewhere : ∀ names, names ≠ d.place -> (after.root.get? names).map Node.bare = (t.root.get? names).map Node.bare
  read : after.read p = .ok content ↔ t.Direct p d
  unread : ¬t.Direct p d -> (∃ target, t.inSlot? d = some (.link target)) ∧ after.read p = .error .notDirectory

variable {content : Bytes}

theorem read_eq_of_follow {answer : Except FileFault (List Bytes × Node)} (usable : check p = .ok ())
    (followed : follow t.root true linkLimit (t.origin p) (segments p.bytes) = answer) :
    t.read p = answer >>= fun found => match found.2 with
      | .file content => .ok content
      | .directory _ => .error .isDirectory
      | _ => .ok [] := by
  rw [FileTree.read, FileTree.node, FileTree.locate, usable]
  change (Except.map _ (follow t.root true linkLimit (t.origin p) (segments p.bytes)) >>= _) = _
  rw [followed]
  cases answer <;> rfl

theorem Gives.segments_eq (gives : t.Gives p d) (asFile : d.asDirectory = false) :
    segments p.bytes = (writtenSegments p).dropLast ++ [d.name] := by
  have written : writtenSegments p = segments p.bytes := by simpa [asFile] using gives.asDirectory
  have some : writtenSegments p ≠ [] := by
    intro empty
    have unnamed : d.name = [] := by rw [← gives.named, writtenName, empty]; rfl
    simpa [unnamed, isIdle] using (enterable_iff.mp gives.name).1
  rw [← gives.named, writtenName, List.getLast?_eq_some_getLast some, Option.getD_some, List.dropLast_concat_getLast,
    written]

theorem direct_iff (slot : t.slot p = .ok d) (content : Bytes) :
    t.Direct p d ↔ (t.putSlot d (.file content)).slot p = .ok d := by
  obtain ⟨entries, there⟩ := exists_directory slot
  have alike (names : List Bytes) (apart : names ≠ d.place) :
      ((t.putSlot d (.file content)).root.get? names).map Node.bare = ((t.removeSlot d).root.get? names).map Node.bare :=
    Node.bare_get?_put_remove there content apart
  have file : (t.putSlot d (.file content)).root.get? d.place = some (.file content) := inSlot?_putSlot slot content
  have gone : (t.removeSlot d).root.get? d.place = none := Node.get?_remove List.prefix_rfl
  constructor
  · exact slot_kept rfl alike (by simp [gone]) (by simp [gone])
  · exact slot_kept rfl (fun names apart => (alike names apart).symm) (by simp [file]) (by simp [file])

theorem read_of_slot (slot : t.slot p = .ok d) (asFile : d.asDirectory = false)
    (file : t.root.get? d.place = some (.file content)) : t.read p = .ok content := by
  have gives := slot_eq_ok.mp slot
  obtain ⟨entries, leads⟩ := gives.leads
  have arrives : Leads t.root true linkLimit (t.origin p) (segments p.bytes) (d.place, .file content) := by
    rw [gives.segments_eq asFile]
    exact leads.append (by simp) fun links => .enter leads.get?_of_leads gives.name file (by simp) (.stop file)
  exact read_eq_of_follow gives.usable (follow_eq_ok.mpr arrives)

theorem replaced (takes : t.Takes p d) (content : Bytes) : Replaced t (t.putSlot d (.file content)) p d content := by
  have alike := alike_putSlot takes.slot takes.outside content
  have file : (t.putSlot d (.file content)).root.get? d.place = some (.file content) := inSlot?_putSlot takes.slot content
  have read (direct : t.Direct p d) : (t.putSlot d (.file content)).read p = .ok content :=
    read_of_slot ((direct_iff takes.slot content).mp direct) takes.asFile file
  have unread (winds : ¬t.Direct p d) :
      (∃ target, t.inSlot? d = some (.link target)) ∧ (t.putSlot d (.file content)).read p = .error .notDirectory := by
    have gives := slot_eq_ok.mp takes.slot
    obtain ⟨entries, leads⟩ := gives.leads
    have elsewhere : d.directory ≠ d.place := by simp [Slot.place]
    rcases leads.kept_or_blocked alike takes.outside elsewhere with ⟨node, leads', -⟩ | ⟨linked, blocked⟩
    next =>
      obtain ⟨entries', held⟩ := directory_kept alike elsewhere leads.get?_of_leads
      obtain rfl : node = .directory entries' := Option.some_inj.mp (leads'.get?_of_leads.symm.trans held)
      refine absurd ((direct_iff takes.slot content).mpr (slot_eq_ok.mpr ?_)) winds
      exact ⟨gives.usable, ⟨entries', leads'⟩, gives.named, gives.name, gives.asDirectory⟩
    next =>
      have lost := blocked content file [d.name] true (by simp)
      rw [← gives.segments_eq takes.asFile] at lost
      exact ⟨linked, read_eq_of_follow gives.usable lost⟩
  refine ⟨rfl, file, alike, ⟨fun held => Classical.byContradiction fun winds => ?_, read⟩, unread⟩
  rw [(unread winds).2] at held
  cases held

section

variable {temp : Path}

theorem target_of_takes (takes : t.Takes temp s) (absent : t.inSlot? s = none) : t.target temp = .ok s.place := by
  simp only [target, takes.slot, absent, Bind.bind, Except.bind, takes.asFile]
  rfl

theorem target_of_refused (refused : ¬∃ s, t.Takes temp s) (free : ∀ s, t.slot temp = .ok s -> t.inSlot? s = none) :
    ∃ e, t.target temp = .error e := by
  cases slot : t.slot temp with
  | error e => exact ⟨e, by rw [target, slot]; rfl⟩
  | ok s =>
    have absent := free s slot
    cases asDirectory : s.asDirectory with
    | false => exact absurd ⟨s, slot, asDirectory, by simp [absent]⟩ refused
    | true => exact ⟨.isDirectory, by simp only [target, slot, absent, Bind.bind, Except.bind, asDirectory]; rfl⟩

theorem fill_place (solid : t.inSlot? s ≠ some .device) (content : Bytes) :
    t.fill s.place content = t.putSlot s (.file content) := by
  have solid : t.root.get? s.place ≠ some .device := solid
  unfold fill
  split
  next device => exact absurd device solid
  next => simp [putSlot, Slot.place]

theorem append_putSlot (slot : t.slot temp = .ok s) (content bytes : Bytes) :
    (t.putSlot s (.file content)).append s.place bytes = t.putSlot s (.file (content ++ bytes)) := by
  have there : (t.putSlot s (.file content)).root.get? s.place = some (.file content) := inSlot?_putSlot slot content
  rw [append, there]
  dsimp only
  rw [fill_place (by simp [inSlot?_putSlot slot])]
  simp only [putSlot, Node.put_put]

end

theorem holds_directory_iff :
    ((t.inSlot? d).map Node.isDirectory).getD false = true ↔ ∃ entries, t.inSlot? d = some (.directory entries) := by
  cases t.inSlot? d with
  | none => simp
  | some node => cases node <;> simp [Node.isDirectory]

variable {temp : Path}

theorem holds_directory_putSlot (slot : t.slot temp = .ok s) (absent : t.inSlot? s = none) (content : Bytes) :
    (((t.putSlot s (.file content)).inSlot? d).map Node.isDirectory).getD false =
      ((t.inSlot? d).map Node.isDirectory).getD false := by
  by_cases same : d.place = s.place
  next =>
    have file : (t.putSlot s (.file content)).root.get? d.place = some (.file content) :=
      same ▸ inSlot?_putSlot slot content
    have before : t.root.get? d.place = none := same ▸ absent
    change (((t.putSlot s (.file content)).root.get? d.place).map _).getD _ = ((t.root.get? d.place).map _).getD _
    rw [file, before]
    rfl
  next =>
    have alike := alike_putSlot slot (by simp [absent]) content d.place same
    change (((t.putSlot s (.file content)).root.get? d.place).map _).getD _ = ((t.root.get? d.place).map _).getD _
    cases now : (t.putSlot s (.file content)).root.get? d.place <;> cases before : t.root.get? d.place <;>
      rw [now, before] at alike
    · cases alike
    · cases alike
    · exact Node.isDirectory_eq_of_bare (Option.some.inj alike)

theorem rename_new (slot : t.slot temp = .ok s) (absent : t.inSlot? s = none) (p : Path) (content : Bytes) :
    (∃ d, t.Takes p d ∧ (t.putSlot s (.file content)).rename temp p = .ok (t.putSlot d (.file content))) ∨
      (¬∃ d, t.Takes p d) ∧ ∃ e, (t.putSlot s (.file content)).rename temp p = .error e := by
  have source : (t.putSlot s (.file content)).slot temp = .ok s := (slot_putSlot slot absent content).mpr slot
  have kept {d : Slot} := slot_putSlot (p := p) (d := d) slot absent content
  cases target : (t.putSlot s (.file content)).slot p with
  | error e =>
    refine .inr ⟨fun ⟨d, takes⟩ => ?_, e, by simp only [rename, source, target, Bind.bind, Except.bind]⟩
    rw [kept.mpr takes.slot] at target
    cases target
  | ok d =>
    have here : t.slot p = .ok d := kept.mp target
    have renamed : (t.putSlot s (.file content)).rename temp p =
        if d.asDirectory then .error .notDirectory
        else if ((t.inSlot? d).map Node.isDirectory).getD false then .error .isDirectory
        else .ok (t.putSlot d (.file content)) := by
      simp only [rename, source, target, Bind.bind, Except.bind, inSlot?_putSlot slot content,
        holds_directory_putSlot slot absent content, removeSlot_putSlot absent]
    have only {d' : Slot} (takes : t.Takes p d') : d' = d := Except.ok.inj (takes.slot.symm.trans here)
    cases asDirectory : d.asDirectory with
    | true =>
      refine .inr ⟨fun ⟨d', takes⟩ => ?_, _, by rw [renamed, asDirectory]; rfl⟩
      simpa [only takes, asDirectory] using takes.asFile
    | false =>
      by_cases held : ((t.inSlot? d).map Node.isDirectory).getD false = true
      next =>
        refine .inr ⟨fun ⟨d', takes⟩ => ?_, _, by rw [renamed, asDirectory, held]; rfl⟩
        obtain ⟨entries, directory⟩ := holds_directory_iff.mp held
        exact takes.outside entries (only takes ▸ directory)
      next =>
        have outside (entries : List (Bytes × Node)) (directory : t.inSlot? d = some (.directory entries)) : False :=
          held (holds_directory_iff.mpr ⟨entries, directory⟩)
        refine .inl ⟨d, ⟨here, asDirectory, outside⟩, ?_⟩
        rw [renamed, asDirectory, if_neg (by simp), if_neg held]

theorem removeFile_new (slot : t.slot temp = .ok s) (absent : t.inSlot? s = none) (content : Bytes) :
    (t.putSlot s (.file content)).removeFile temp = .ok t := by
  have source : (t.putSlot s (.file content)).slot temp = .ok s := (slot_putSlot slot absent content).mpr slot
  simp [removeFile, source, Bind.bind, Except.bind, inSlot?_putSlot slot content, Node.isDirectory,
    removeSlot_putSlot absent]

section

variable {w : Mishaps} {mark : String} {temp : Path}

theorem run_replace_unstored {e : FileFault}
    (stored : ((diskWith w mark).store (Disk.temporary mark p) content).run t = (.error e, t')) :
    ((diskWith w mark).replace p content).run t = (.error e, t') := by
  have marked : ((diskWith w mark).mark).run t = pure (mark, t) := rfl
  simp only [Disk.replace, StateT.run_bind, marked, pure_bind, stored]
  rfl

theorem run_replace_stored (stored : ((diskWith w mark).store (Disk.temporary mark p) content).run t = (.ok (), t')) :
    ((diskWith w mark).replace p content).run t =
      match ((diskWith w mark).rename (Disk.temporary mark p) p).run t' with
      | (.error e, t) => (.error e, (((diskWith w mark).remove (Disk.temporary mark p)).run t).2)
      | (.ok (), t) => (.ok (), t) := by
  have marked : ((diskWith w mark).mark).run t = pure (mark, t) := rfl
  have stored : ((diskWith w mark).store (Disk.temporary mark p) content).run t = pure (.ok (), t') := stored
  simp only [Disk.replace, StateT.run_bind, marked, pure_bind, stored]
  generalize ((diskWith w mark).rename (Disk.temporary mark p) p).run t' = named
  rcases named with ⟨e | _, named⟩
  next => rfl
  next => rfl

theorem run_store_barred (mark : String) (t : FileTree) (content : Bytes) {e : FileFault} (mishap : w.create temp = some e) :
    ((diskWith w mark).store temp content).run t = (.error e, t) := by
  have created : ((diskWith w mark).create temp).run t = pure (.error e, t) := by simp only [diskWith, barring, mishap]; rfl
  rw [Disk.store, StateT.run_bind, created]
  rfl

theorem run_store_refused (mark : String) (content : Bytes) (spared : w.create temp = .none) (refused : ¬∃ s, t.Takes temp s)
    (free : ∀ s, t.slot temp = .ok s -> t.inSlot? s = none) :
    ∃ e, ((diskWith w mark).store temp content).run t = (.error e, t) := by
  obtain ⟨e, target⟩ := target_of_refused refused free
  have created : ((diskWith w mark).create temp).run t = pure (.error e, t) := by
    simp only [diskWith, barring, spared]
    change create w temp t = _
    simp only [create, target]
    rfl
  refine ⟨e, ?_⟩
  rw [Disk.store, StateT.run_bind, created]
  rfl

theorem run_store (mark : String) (content : Bytes) (spared : w.create temp = .none) (takes : t.Takes temp s) (absent : t.inSlot? s = none) :
    ((diskWith w mark).store temp content).run t =
      (match w.write temp content with
        | some (_, e) => .error e
        | .none => outcome (w.sync temp), t.putSlot s (.file (w.kept temp content))) := by
  have created : ((diskWith w mark).create temp).run t =
      pure (.ok (openFile w temp s.place), t.putSlot s (.file [])) := by
    simp only [diskWith, barring, spared]
    change create w temp t = _
    simp only [create, target_of_takes takes absent, fill_place (absent ▸ nofun : t.inSlot? s ≠ some .device)]
    rfl
  have appended : (t.putSlot s (.file [])).append s.place (w.kept temp content) =
      t.putSlot s (.file (w.kept temp content)) := append_putSlot takes.slot [] _
  have written : ((openFile w temp s.place).write content).run (t.putSlot s (.file [])) =
      pure (outcome ((w.write temp content).map (·.2)), t.putSlot s (.file (w.kept temp content))) := by
    rw [← appended]
    rfl
  simp only [Disk.store, StateT.run_bind, created, pure_bind, written]
  cases w.write temp content <;> rfl

theorem run_rename_refused (mark : String) {e : FileFault} (refused : w.rename temp p = some e ∨ t.rename temp p = .error e) :
    ∃ e, ((diskWith w mark).rename temp p).run t = (.error e, t) := by
  cases mishap : w.rename temp p with
  | some e => exact ⟨e, by simp only [diskWith, barring, mishap]; rfl⟩
  | none =>
    have refused : t.rename temp p = .error e := refused.resolve_left (by simp [mishap])
    refine ⟨e, ?_⟩
    simp only [diskWith, barring, mishap]
    change change _ t = _
    simp only [change, refused]

/-- Every step of the replacement can be taken. -/
structure Completes (w : Mishaps) (t : FileTree) (temp p : Path) (content : Bytes) : Prop where
  created : w.create temp = .none
  beside : ∃ s, t.Takes temp s
  written : w.write temp content = .none
  synced : w.sync temp = .none
  renamed : w.rename temp p = .none
  takes : ∃ d, t.Takes p d

/-- The temporary file is made and then left where it is. A file that cannot be written in full is not removed. -/
structure Abandons (w : Mishaps) (t : FileTree) (temp p : Path) (content : Bytes) : Prop where
  created : w.create temp = .none
  beside : ∃ s, t.Takes temp s
  failed : w.write temp content ≠ .none ∨ w.sync temp ≠ .none ∨
    (w.rename temp p ≠ .none ∨ ¬∃ d, t.Takes p d) ∧ w.remove temp ≠ .none

theorem Mishaps.kept_of_written (written : w.write p content = .none) : w.kept p content = content := by
  rw [kept, written]

section

variable (created : w.create (Disk.temporary mark p) = .none) (takes : t.Takes (Disk.temporary mark p) s)
  (absent : t.inSlot? s = none)

include created takes absent

theorem run_replace_unwritten
    (failed : w.write (Disk.temporary mark p) content ≠ .none ∨ w.sync (Disk.temporary mark p) ≠ .none) :
    ∃ e, ((diskWith w mark).replace p content).run t =
      (.error e, t.putSlot s (.file (w.kept (Disk.temporary mark p) content))) := by
  have stored := run_store mark content created takes absent
  cases written : w.write (Disk.temporary mark p) content with
  | some mishap => exact ⟨mishap.2, run_replace_unstored (by rw [stored, written])⟩
  | none =>
    obtain ⟨e, synced⟩ := Option.ne_none_iff_exists'.mp (failed.resolve_left (by simp [written]))
    exact ⟨e, run_replace_unstored (by rw [stored, written, synced]; rfl)⟩

section

variable (written : w.write (Disk.temporary mark p) content = .none) (synced : w.sync (Disk.temporary mark p) = .none)

include written synced

theorem run_store_written :
    ((diskWith w mark).store (Disk.temporary mark p) content).run t = (.ok (), t.putSlot s (.file content)) := by
  rw [run_store mark content created takes absent, Mishaps.kept_of_written written, written, synced]
  rfl

theorem run_replace_unnamed (refused : w.rename (Disk.temporary mark p) p ≠ .none ∨ ¬∃ d, t.Takes p d) :
    ∃ e, ((diskWith w mark).replace p content).run t =
      (.error e, if w.remove (Disk.temporary mark p) = .none then t else t.putSlot s (.file content)) := by
  obtain ⟨e, refused⟩ : ∃ e, w.rename (Disk.temporary mark p) p = some e ∨
      (t.putSlot s (.file content)).rename (Disk.temporary mark p) p = .error e := by
    rcases refused with mishap | refused
    next => exact (Option.ne_none_iff_exists'.mp mishap).imp fun _ => .inl
    next =>
      rcases rename_new takes.slot absent p content with ⟨d, taken, -⟩ | ⟨-, e, failed⟩
      · exact absurd ⟨d, taken⟩ refused
      · exact ⟨e, .inr failed⟩
  obtain ⟨e, unnamed⟩ := run_rename_refused mark refused
  refine ⟨e, ?_⟩
  rw [run_replace_stored (run_store_written created takes absent written synced), unnamed]
  refine congrArg (Prod.mk (Except.error e)) ?_
  simp only [diskWith, barring]
  cases w.remove (Disk.temporary mark p) with
  | some e => rfl
  | none =>
    rw [if_pos rfl]
    change (change (·.removeFile (Disk.temporary mark p)) (t.putSlot s (.file content))).2 = t
    simp only [change, removeFile_new takes.slot absent content]

theorem run_replace_placed (renamed : w.rename (Disk.temporary mark p) p = .none) (taken : t.Takes p d) :
    ((diskWith w mark).replace p content).run t = (.ok (), t.putSlot d (.file content)) := by
  have moved : ((diskWith w mark).rename (Disk.temporary mark p) p).run (t.putSlot s (.file content)) =
      (.ok (), t.putSlot d (.file content)) := by
    simp only [diskWith, barring, renamed]
    change change _ (t.putSlot s (.file content)) = _
    rcases rename_new takes.slot absent p content with ⟨d', taken', named⟩ | ⟨refused, -⟩
    · obtain rfl := Except.ok.inj (taken.slot.symm.trans taken'.slot)
      simp only [change, named]
    · exact absurd ⟨d, taken⟩ refused
  rw [run_replace_stored (run_store_written created takes absent written synced), moved]

end

end

theorem putSlot_ne (slot : t.slot p = .ok s) (absent : t.inSlot? s = none) (content : Bytes) :
    t.putSlot s (.file content) ≠ t := by
  intro same
  have there := inSlot?_putSlot slot content
  rw [same, absent] at there
  cases there

/-- What a replacement that fails leaves of the tree `t`: the whole tree, unless the temporary file is left behind. -/
structure Unreplaced (w : Mishaps) (t after : FileTree) (temp p : Path) (content : Bytes) : Prop where
  whole : after = t ↔ ¬Abandons w t temp p content
  beside : Abandons w t temp p content ->
    ∃ s, t.Takes temp s ∧ after = t.putSlot s (.file (w.kept temp content))

theorem unreplaced_whole (whole : ¬Abandons w t temp p content) : Unreplaced w t t temp p content :=
  ⟨iff_of_true rfl whole, fun abandons => absurd abandons whole⟩

theorem unreplaced_beside (abandons : Abandons w t temp p content) (takes : t.Takes temp s)
    (absent : t.inSlot? s = none) :
    Unreplaced w t (t.putSlot s (.file (w.kept temp content))) temp p content :=
  ⟨iff_of_false (putSlot_ne takes.slot absent _) (not_not_intro abandons), fun _ => ⟨s, takes, rfl⟩⟩

theorem unreplaced_unnamed (created : w.create temp = .none) (takes : t.Takes temp s) (absent : t.inSlot? s = none)
    (written : w.write temp content = .none) (synced : w.sync temp = .none)
    (refused : w.rename temp p ≠ .none ∨ ¬∃ d, t.Takes p d) :
    Unreplaced w t (if w.remove temp = .none then t else t.putSlot s (.file content)) temp p content := by
  by_cases removed : w.remove temp = .none
  next =>
    rw [if_pos removed]
    refine unreplaced_whole fun left => ?_
    rcases left.failed with unwritten | unsynced | ⟨-, stays⟩
    · exact unwritten written
    · exact unsynced synced
    · exact stays removed
  next =>
    have left : Abandons w t temp p content := ⟨created, ⟨s, takes⟩, .inr (.inr ⟨refused, removed⟩)⟩
    have beside := unreplaced_beside left takes absent
    rw [Mishaps.kept_of_written written] at beside
    rw [if_neg removed]
    exact beside

/-- A replacement that can be completed puts the file in place, and the rest of the tree is what it was. Any other fails,
and then the whole tree is what it was, unless the temporary file is left behind. -/
theorem replace_allOrNothing (w : Mishaps) (mark : String) (t : FileTree) (p : Path) (content : Bytes)
    (free : ∀ s, t.slot (Disk.temporary mark p) = .ok s -> t.inSlot? s = none) :
    (Completes w t (Disk.temporary mark p) p content ∧ ∃ d after, t.Takes p d ∧
        ((diskWith w mark).replace p content).run t = (.ok (), after) ∧ Replaced t after p d content) ∨
      ¬Completes w t (Disk.temporary mark p) p content ∧ ∃ e after,
        ((diskWith w mark).replace p content).run t = (.error e, after) ∧
          Unreplaced w t after (Disk.temporary mark p) p content := by
  cases created : w.create (Disk.temporary mark p) with
  | some e =>
    refine .inr ⟨fun all => ?_, e, t, run_replace_unstored (run_store_barred mark t content created),
      unreplaced_whole fun left => ?_⟩
    · exact absurd (all.created.symm.trans created) nofun
    · exact absurd (left.created.symm.trans created) nofun
  | none =>
    by_cases beside : ∃ s, t.Takes (Disk.temporary mark p) s
    next =>
      obtain ⟨s, takes⟩ := beside
      have absent := free s takes.slot
      by_cases failed : w.write (Disk.temporary mark p) content ≠ .none ∨ w.sync (Disk.temporary mark p) ≠ .none
      next =>
        obtain ⟨e, ran⟩ := run_replace_unwritten created takes absent failed
        refine .inr ⟨fun all => ?_, e, _, ran, unreplaced_beside ⟨created, ⟨s, takes⟩, ?_⟩ takes absent⟩
        · exact failed.elim (absurd all.written) (absurd all.synced)
        · exact failed.imp_right .inl
      next =>
        obtain ⟨written, synced⟩ := not_or.mp failed
        rw [ne_eq, Classical.not_not] at written synced
        by_cases refused : w.rename (Disk.temporary mark p) p ≠ .none ∨ ¬∃ d, t.Takes p d
        next =>
          obtain ⟨e, ran⟩ := run_replace_unnamed created takes absent written synced refused
          exact .inr ⟨fun all => refused.elim (absurd all.renamed) (absurd all.takes), e, _, ran,
            unreplaced_unnamed created takes absent written synced refused⟩
        next =>
          obtain ⟨renamed, taken⟩ := not_or.mp refused
          rw [ne_eq, Classical.not_not] at renamed
          rw [Classical.not_not] at taken
          obtain ⟨d, taken'⟩ := taken
          refine .inl ⟨⟨created, ⟨s, takes⟩, written, synced, renamed, d, taken'⟩, d, _, taken', ?_, replaced taken' content⟩
          exact run_replace_placed created takes absent written synced renamed taken'
    next =>
      obtain ⟨e, stored⟩ := run_store_refused mark content created beside free
      exact .inr ⟨fun all => beside all.beside, e, t, run_replace_unstored stored,
        unreplaced_whole fun left => beside left.beside⟩

end

theorem slot_of_leads {lead directory : List Bytes} {entries : List (Bytes × Node)} {name : Bytes}
    (usable : check p = .ok ()) (segments : segments p.bytes = lead ++ [name]) (named : Enterable name)
    (leads : Leads t.root true linkLimit (t.origin p) lead (directory, .directory entries)) :
    t.slot p = .ok ⟨directory, name, false⟩ := by
  have some : name ≠ [] := fun empty => by simpa [empty, isIdle] using (enterable_iff.mp named).1
  have written : writtenSegments p = lead ++ [name] := by simp [writtenSegments, segments, some]
  refine slot_eq_ok.mpr ⟨usable, ⟨entries, ?_⟩, by simp [writtenName, written], named, by simp [written, segments]⟩
  rw [written, List.dropLast_concat]
  exact leads

theorem slot_top {entries : List (Bytes × Node)} {name : Bytes} (root : t.root = .directory entries)
    (absolute : p.isAbsolute = true) (usable : check p = .ok ()) (segments : segments p.bytes = [[], name])
    (named : Enterable name) : t.slot p = .ok ⟨[], name, false⟩ := by
  have top : t.root.get? [] = .some (.directory entries) := congrArg Option.some root
  have leads : Leads t.root true linkLimit (t.origin p) [[]] ([], .directory entries) := by
    rw [origin, if_pos absolute]
    exact .idle top rfl (.stop top)
  exact slot_of_leads usable segments named leads

-- A link is replaced by a file, and what it led to stays.
theorem replace_allOrNothing_link :
    let t : FileTree := ⟨.directory [([97], .link "b"), ([98], .file [120])], []⟩
    ∃ after, ((disk "7").replace "/a" [121]).run t = (.ok (), after) ∧ after.root.get? [[97]] = some (.file [121]) ∧
      (after.root.get? [[98]]).map Node.bare = some (.file [120]) ∧ after.read "/a" = .ok [121] := by
  intro t
  have beside : t.slot (Disk.temporary "7" "/a") = .ok ⟨[], [46, 97, 46, 116, 109, 112, 46, 55], false⟩ :=
    slot_top rfl (by decide +kernel) (check_eq_ok.mpr (by decide +kernel)) (by decide +kernel) ⟨by decide +kernel, by decide +kernel⟩
  have named : Enterable [97] := ⟨by decide +kernel, by decide +kernel⟩
  have here (t : FileTree) (entries : List (Bytes × Node)) (root : t.root = .directory entries) :
      t.slot "/a" = .ok ⟨[], [97], false⟩ :=
    slot_top root (by decide +kernel) (check_eq_ok.mpr (by decide +kernel)) (by decide +kernel) named
  have free (s : Slot) (slot : t.slot (Disk.temporary "7" "/a") = .ok s) : t.inSlot? s = none := by
    obtain rfl := Except.ok.inj (beside.symm.trans slot)
    rfl
  have takes : t.Takes "/a" ⟨[], [97], false⟩ := ⟨here t _ rfl, rfl, fun _ held => nomatch held⟩
  rcases replace_allOrNothing .none "7" t "/a" [121] free with ⟨-, d, after, there, run, replaced⟩ | ⟨refused, -⟩
  next =>
    obtain rfl := Except.ok.inj (there.slot.symm.trans (here t _ rfl))
    exact ⟨after, run, replaced.file, (replaced.elsewhere [[98]] (by decide)).trans rfl, replaced.read.mpr (here _ _ rfl)⟩
  next =>
    exact absurd ⟨rfl, ⟨_, beside, rfl, fun _ held => nomatch held⟩, rfl, rfl, rfl, _, takes⟩ refused

-- A disk on which there is room for one byte only.
def fullDisk : Mishaps :=
  { Mishaps.none with write := fun _ _ => some (1, .other "No space left on device (os error 28)") }

-- When no space is left, the temporary file stays with a part of the content. A path that leads
-- through the link that it replaces leads nowhere afterwards.
theorem replace_spoils :
    let empty : FileTree := ⟨.directory [], []⟩
    let linked : FileTree := ⟨.directory [([100], .directory []), ([108], .link "d")], []⟩
    ((∀ s, empty.slot (Disk.temporary "7" "/a") = .ok s -> empty.inSlot? s = none) ∧
        ∃ e after, ((diskWith fullDisk "7").replace "/a" [97, 98]).run empty = (.error e, after) ∧ after ≠ empty ∧
          after.root.get? [[46, 97, 46, 116, 109, 112, 46, 55]] = some (.file [97])) ∧
      (∀ s, linked.slot (Disk.temporary "7" "/l/../l") = .ok s -> linked.inSlot? s = none) ∧
        ∃ after, ((disk "7").replace "/l/../l" [97]).run linked = (.ok (), after) ∧
          after.read "/l/../l" = .error .notDirectory := by
  intro empty linked
  constructor
  next =>
    have beside : empty.slot (Disk.temporary "7" "/a") = .ok ⟨[], [46, 97, 46, 116, 109, 112, 46, 55], false⟩ :=
      slot_top rfl (by decide +kernel) (check_eq_ok.mpr (by decide +kernel)) (by decide +kernel) ⟨by decide +kernel, by decide +kernel⟩
    have created : fullDisk.create (Disk.temporary "7" "/a") = .none := rfl
    have unwritten : fullDisk.write (Disk.temporary "7" "/a") [97, 98] ≠ .none := nofun
    obtain ⟨e, ran⟩ := run_replace_unwritten created ⟨beside, rfl, fun _ held => nomatch held⟩ rfl (.inl unwritten)
    refine ⟨fun s slot => ?_, e, _, ran, putSlot_ne beside rfl _, inSlot?_putSlot beside _⟩
    obtain rfl := Except.ok.inj (beside.symm.trans slot)
    rfl
  next =>
    have top : linked.root.get? [] = some linked.root := rfl
    -- Through the link into `d`, and from there back to the top.
    have leads {p : Path} (absolute : p.isAbsolute = true) : Leads linked.root true linkLimit (linked.origin p)
        [[], [108], [dot, dot]] ([], .directory [([100], .directory []), ([108], .link "d")]) := by
      rw [origin, if_pos absolute]
      have target : segments (Path.ofString "d").bytes = [[100]] := by decide +kernel
      refine .idle top rfl (.link top ⟨by decide +kernel, by decide +kernel⟩ rfl (.inl (by simp)) ?_)
      rw [target]
      exact .enter top ⟨by decide +kernel, by decide +kernel⟩ rfl (by simp) (.up rfl (.stop top))
    have slot (p : Path) (name : Bytes) (usable : check p = .ok ()) (absolute : p.isAbsolute = true)
        (named : Enterable name) (spelled : segments p.bytes = [[], [108], [dot, dot]] ++ [name]) :
        linked.slot p = .ok ⟨[], name, false⟩ := slot_of_leads usable spelled named (leads absolute)
    have beside := slot (Disk.temporary "7" "/l/../l") [46, 108, 46, 116, 109, 112, 46, 55]
      (check_eq_ok.mpr (by decide +kernel)) (by decide +kernel) ⟨by decide +kernel, by decide +kernel⟩ (by decide +kernel)
    have usable : check "/l/../l" = .ok () := check_eq_ok.mpr (by decide +kernel)
    have spelled : segments (Path.ofString "/l/../l").bytes = [[], [108], [dot, dot], [108]] := by decide +kernel
    have named : Enterable [108] := ⟨by decide +kernel, by decide +kernel⟩
    have here := slot "/l/../l" [108] usable (by decide +kernel) named spelled
    have takes : linked.Takes "/l/../l" ⟨[], [108], false⟩ := ⟨here, rfl, fun _ held => nomatch held⟩
    let after := linked.putSlot ⟨[], [108], false⟩ (.file [97])
    have blocked : follow after.root true linkLimit (after.origin "/l/../l") (segments (Path.ofString "/l/../l").bytes) =
        .error .notDirectory := by
      rw [origin, if_pos (by decide +kernel), spelled, follow_idle rfl rfl rfl, follow_enter rfl named rfl (by simp)]
      exact follow_file rfl (by simp)
    refine ⟨fun s slot => ?_, after,
      run_replace_placed rfl ⟨beside, rfl, fun _ held => nomatch held⟩ rfl rfl rfl rfl takes,
      read_eq_of_follow usable blocked⟩
    obtain rfl := Except.ok.inj (beside.symm.trans slot)
    rfl

end FileTree

end StylesheetImports
