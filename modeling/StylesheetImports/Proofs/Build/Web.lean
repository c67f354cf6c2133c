import Mathlib.Data.List.Perm.Subperm
import Mathlib.Order.Bounds.Defs
import StylesheetImports.Build.Graph
import StylesheetImports.Proofs.Storage.Query

set_option autoImplicit false

namespace StylesheetImports

/-- What is loaded from each location, and what the specifiers of each stylesheet resolve to. -/
structure Web where
  load : Url -> Option Loaded
  answer : Url -> Specifier -> Resolution

namespace Web

variable (w : Web)

-- The specifiers of a stylesheet as it is loaded, without those that are the host's business.
def specifiers (u : Url) : List Specifier :=
  match w.load u with
  | none => []
  | some loaded => (Scan.ofText loaded.content).specifiers.filter fun spec => !Graph.isHosts spec.value

def found? (u : Url) (spec : Specifier) : Option Url :=
  match w.answer u spec with
  | .found v => some v
  | _ => none

def missing? (u : Url) (spec : Specifier) : Option Missing :=
  match w.answer u spec with
  | .absent =>
    if Graph.staysPlain spec then none else some { sheet := u, specifier := PackedSpecifier.display spec.value }
  | _ => none

def imports (u : Url) : List Url :=
  (w.specifiers u).filterMap (w.found? u)

-- The specifiers of a stylesheet that resolve to nothing and do not stay plain imports.
def missing (u : Url) : List Missing :=
  (w.specifiers u).filterMap (w.missing? u)

/-- A stylesheet is reached by that many imports, one after the other. -/
inductive Reaches (entry : Url) : Nat -> Url -> Prop
  | entry : Reaches entry 0 entry
  | step {n : Nat} {u v : Url} (reached : Reaches entry n u) (imported : v ∈ w.imports u) : Reaches entry (n + 1) v

def Ambiguous (entry : Url) (specifier : String) (candidates : List Path) : Prop :=
  ∃ n u, w.Reaches entry n u ∧ ∃ spec ∈ w.specifiers u, w.answer u spec = .ambiguous specifier candidates

inductive Failing (entry : Url) : Failure -> Prop
  | unreadable (none : w.load entry = none) : Failing entry (.unreadable entry)
  | ambiguous {specifier : String} {candidates : List Path} (ambiguous : w.Ambiguous entry specifier candidates) :
      Failing entry (.ambiguous specifier candidates)

def Describes (sheet : Sheet) : Prop :=
  ∃ loaded, w.load sheet.url = some loaded ∧ sheet.dialect = loaded.dialect ∧
    sheet.replacements = loaded.replacements ∧ sheet.imports = w.imports sheet.url

/-- The graph is all that an entry reaches. -/
structure Complete (entry : Url) (g : Graph) : Prop where
  begins : g.entry = entry
  nodup : (g.sheets.map (·.url)).Nodup
  reached : ∀ u, u ∈ g.sheets.map (·.url) ↔ ∃ n, w.Reaches entry n u
  ordered : ∃ distance : Url -> Nat,
    (∀ u ∈ g.sheets.map (·.url), IsLeast (fun n => w.Reaches entry n u) (distance u)) ∧
      (g.sheets.map (·.url)).Pairwise fun u v => distance u <= distance v
  sheets : ∀ sheet ∈ g.sheets, w.Describes sheet
  closed : ∀ sheet ∈ g.sheets, ∀ v ∈ sheet.imports, v ∈ g.sheets.map (·.url)
  missing : g.missing = (g.sheets.map (·.url)).flatMap w.missing

theorem exists_of_mem_imports {w : Web} {u v : Url} (h : v ∈ w.imports u) :
    ∃ spec ∈ w.specifiers u, w.answer u spec = .found v := by
  obtain ⟨spec, mem, found⟩ := List.mem_filterMap.mp h
  refine ⟨spec, mem, ?_⟩
  unfold found? at found
  split at found
  next same => rw [same, Option.some.inj found]
  next => simp at found

theorem mem_newIn {known found : List Url} {u : Url} :
    u ∈ Graph.newIn known found ↔ u ∈ found ∧ u ∉ known := by
  induction found generalizing known with
  | nil => simp [Graph.newIn]
  | cons v found ih =>
    rw [Graph.newIn]
    split
    next old =>
      have old : v ∈ known := by simpa using old
      rw [ih]
      constructor
      · exact fun h => ⟨List.mem_cons_of_mem v h.1, h.2⟩
      · rintro ⟨mem, new⟩
        refine ⟨(List.mem_cons.mp mem).resolve_left ?_, new⟩
        rintro rfl
        exact new old
    next new =>
      have new : v ∉ known := by simpa using new
      rw [List.mem_cons, ih, List.mem_cons, List.mem_cons]
      by_cases same : u = v
      · simp [same, new]
      · simp [same]

theorem nodup_newIn (known found : List Url) : (Graph.newIn known found).Nodup := by
  induction found generalizing known with
  | nil => exact List.nodup_nil
  | cons v found ih =>
    rw [Graph.newIn]
    split
    · exact ih known
    · refine List.nodup_cons.mpr ⟨fun mem => ?_, ih _⟩
      exact (mem_newIn.mp mem).2 List.mem_cons_self

/-- Locations that are done, and locations that wait, with the number of imports by which each was reached. -/
structure Frontier (entry : Url) (done queue : List Url) (level : Url -> Nat) : Prop where
  nodup : (done ++ queue).Nodup
  start : entry ∈ done ++ queue ∧ level entry = 0
  reached : ∀ u ∈ done ++ queue, w.Reaches entry (level u) u
  ascending : (done ++ queue).Pairwise fun u v => level u <= level v
  -- Those that wait are one import apart at most.
  near : ∀ u ∈ queue, ∀ v ∈ queue, level v <= level u + 1
  followed : ∀ u ∈ done, ∀ v ∈ w.imports u, v ∈ done ++ queue ∧ level v <= level u + 1

variable {w} {entry : Url} {done queue : List Url} {level : Url -> Nat}

theorem frontier_start : w.Frontier entry [] [entry] fun _ => 0 where
  nodup := List.nodup_cons.mpr ⟨List.not_mem_nil, List.nodup_nil⟩
  start := ⟨List.mem_cons_self, rfl⟩
  reached := fun u mem => by
    rw [List.nil_append, List.mem_singleton] at mem
    exact mem ▸ .entry
  ascending := List.pairwise_singleton _ _
  near := fun _ _ _ _ => Nat.zero_le _
  followed := fun u mem => absurd mem List.not_mem_nil

theorem Frontier.le_level {u : Url} (h : w.Frontier entry done (u :: queue) level) {v : Url} (mem : v ∈ queue) :
    level u <= level v :=
  (List.pairwise_cons.mp (List.pairwise_append.mp h.ascending).2.1).1 v mem

theorem Frontier.level_le {u : Url} (h : w.Frontier entry done (u :: queue) level) {v : Url}
    (mem : v ∈ done ++ u :: queue) : level v <= level u + 1 := by
  rcases List.mem_append.mp mem with isDone | waiting
  · exact Nat.le_succ_of_le ((List.pairwise_append.mp h.ascending).2.2 v isDone u List.mem_cons_self)
  · exact h.near u List.mem_cons_self v waiting

theorem Frontier.step {u : Url} (h : w.Frontier entry done (u :: queue) level) :
    w.Frontier entry (done ++ [u]) (queue ++ Graph.newIn (done ++ u :: queue) (w.imports u))
      fun v => if v ∈ done ++ u :: queue then level v else level u + 1 := by
  generalize hnew : Graph.newIn (done ++ u :: queue) (w.imports u) = new
  generalize hlevel : (fun v => if v ∈ done ++ u :: queue then level v else level u + 1) = level'
  have mem_new (v : Url) : v ∈ new ↔ v ∈ w.imports u ∧ v ∉ done ++ u :: queue := by rw [← hnew, mem_newIn]
  have order : (done ++ [u]) ++ (queue ++ new) = (done ++ u :: queue) ++ new := by simp
  have old (v : Url) (mem : v ∈ done ++ u :: queue) : level' v = level v := by rw [← hlevel]; exact if_pos mem
  have late (v : Url) (mem : v ∈ new) : level' v = level u + 1 := by
    rw [← hlevel]
    exact if_neg ((mem_new v).mp mem).2
  have here : u ∈ done ++ u :: queue := List.mem_append_right done List.mem_cons_self
  have waits (v : Url) (mem : v ∈ queue) : v ∈ done ++ u :: queue :=
    List.mem_append_right done (List.mem_cons_of_mem u mem)
  have between (v : Url) (mem : v ∈ queue ++ new) : level u <= level' v ∧ level' v <= level u + 1 := by
    rcases List.mem_append.mp mem with waiting | found
    · rw [old v (waits v waiting)]
      exact ⟨h.le_level waiting, h.level_le (waits v waiting)⟩
    · rw [late v found]
      exact ⟨Nat.le_succ _, Nat.le_refl _⟩
  have reachesNew (v : Url) (mem : v ∈ new) : w.Reaches entry (level u + 1) v :=
    .step (h.reached u here) ((mem_new v).mp mem).1
  constructor
  case nodup =>
    rw [order, List.nodup_append]
    refine ⟨h.nodup, hnew ▸ nodup_newIn _ _, fun a known b found => ?_⟩
    rintro rfl
    exact ((mem_new a).mp found).2 known
  case start =>
    rw [order]
    exact ⟨List.mem_append_left new h.start.1, (old entry h.start.1).trans h.start.2⟩
  case reached =>
    intro v mem
    rw [order] at mem
    rcases List.mem_append.mp mem with known | found
    · exact old v known ▸ h.reached v known
    · exact late v found ▸ reachesNew v found
  case ascending =>
    rw [order, List.pairwise_append]
    refine ⟨?_, ?_, fun a known b found => ?_⟩
    · refine h.ascending.imp_of_mem fun ha hb le => ?_
      rwa [old _ ha, old _ hb]
    · refine List.pairwise_of_forall_mem_list fun a ha b hb => ?_
      exact Nat.le_of_eq ((late a ha).trans (late b hb).symm)
    · rw [old a known, late b found]
      exact h.level_le known
  case near =>
    intro a ha b hb
    exact Nat.le_trans (between b hb).2 (Nat.succ_le_succ (between a ha).1)
  case followed =>
    -- What was done before knows its imports already; those of the last one are known or new.
    intro v isDone x imported
    rw [order]
    rcases List.mem_append.mp isDone with before | last
    · obtain ⟨known, below⟩ := h.followed v before x imported
      rw [old x known, old v (List.mem_append_left _ before)]
      exact ⟨List.mem_append_left new known, below⟩
    · rw [List.mem_singleton] at last
      subst last
      rw [old v here]
      by_cases known : x ∈ done ++ v :: queue
      · rw [old x known]
        exact ⟨List.mem_append_left new known, h.level_le known⟩
      · have found := (mem_new x).mpr ⟨imported, known⟩
        exact ⟨List.mem_append_right _ found, Nat.le_of_eq (late x found)⟩

theorem Frontier.least (h : w.Frontier entry done [] level) {n : Nat} {v : Url} (reached : w.Reaches entry n v) :
    v ∈ done ∧ level v <= n := by
  have known : ∀ u, u ∈ done ++ [] ↔ u ∈ done := fun u => by rw [List.append_nil]
  induction reached with
  | entry => exact ⟨(known _).mp h.start.1, Nat.le_of_eq h.start.2⟩
  | step _ imported ih =>
    obtain ⟨mem, below⟩ := h.followed _ ih.1 _ imported
    exact ⟨(known _).mp mem, Nat.le_trans below (Nat.succ_le_succ ih.2)⟩

inductive Ends (w : Web) (entry : Url) (done : List Url) : Except Failure Graph -> Prop
  | graph {g : Graph} {level : Url -> Nat} (begins : g.entry = entry)
      (all : w.Frontier entry (done ++ g.sheets.map (·.url)) [] level)
      (sheets : ∀ sheet ∈ g.sheets, w.Describes sheet)
      (clear : ∀ sheet ∈ g.sheets, ∀ spec ∈ w.specifiers sheet.url, ∀ specifier candidates,
        w.answer sheet.url spec ≠ .ambiguous specifier candidates)
      (missing : g.missing = (g.sheets.map (·.url)).flatMap w.missing) : Ends w entry done (.ok g)
  | failure {failure : Failure} (failing : w.Failing entry failure) : Ends w entry done (.error failure)

-- The means to answer tell what the web has.
structure Told (w : Web) (i : Importers) (fixed : Answers Id) : Prop where
  load : ∀ u, (i.load u).answer fixed = w.load u
  answer : ∀ u spec, (i.canonicalizeFrom u spec.value spec.fromImport).answer fixed = w.answer u spec

variable {i : Importers} {fixed : Answers Id}

def linked (w : Web) (u : Url) (spec : Specifier) : Except Failure Graph.Links -> Except Failure Graph.Links
  | .error e => .error e
  | .ok l => .ok {
      imports := (w.found? u spec).toList ++ l.imports
      missing := (w.missing? u spec).toList ++ l.missing }

theorem answer_links_cons (told : w.Told i fixed) (u : Url) {spec : Specifier} (specs : List Specifier)
    (own : Graph.isHosts spec.value = false) :
    (Graph.links i u (spec :: specs)).answer fixed =
      match w.answer u spec with
      | .ambiguous specifier candidates => .error (.ambiguous specifier candidates)
      | _ => linked w u spec ((Graph.links i u specs).answer fixed) := by
  rw [Graph.links, if_neg (by simp [own])]
  simp only [Query.bind_eq, Query.answer_bind, told.answer]
  cases answer : w.answer u spec with
  | ambiguous specifier candidates => rfl
  | found v =>
    change Query.answer fixed (Query.bind _ _) = _
    rw [Query.answer_bind]
    cases (Graph.links i u specs).answer fixed <;> simp only [linked, found?, missing?, answer] <;> rfl
  | absent =>
    change Query.answer fixed (Query.bind _ _) = _
    rw [Query.answer_bind]
    cases (Graph.links i u specs).answer fixed with
    | error e => rfl
    | ok l =>
      simp only [linked, found?, missing?, answer]
      change Query.answer fixed (if _ then _ else _) = _
      split <;> rfl

theorem answer_links (told : w.Told i fixed) (u : Url) (specs : List Specifier) :
    let own := specs.filter fun spec => !Graph.isHosts spec.value
    (∃ spec ∈ own, ∃ specifier candidates, w.answer u spec = .ambiguous specifier candidates ∧
        (Graph.links i u specs).answer fixed = .error (.ambiguous specifier candidates)) ∨
      (∀ spec ∈ own, ∀ specifier candidates, w.answer u spec ≠ .ambiguous specifier candidates) ∧
        (Graph.links i u specs).answer fixed =
          .ok { imports := own.filterMap (w.found? u), missing := own.filterMap (w.missing? u) } := by
  -- Along the specifiers; the first ambiguity is the answer, wherever it stands.
  induction specs with
  | nil => exact .inr ⟨by simp, rfl⟩
  | cons spec specs ih =>
    by_cases hosts : Graph.isHosts spec.value = true
    · rw [List.filter_cons_of_neg (by simp [hosts]), Graph.links, if_pos hosts]
      exact ih
    · rw [List.filter_cons_of_pos (by simp [hosts]), answer_links_cons told u specs (by simpa using hosts)]
      cases answer : w.answer u spec with
      | ambiguous specifier candidates =>
        exact .inl ⟨spec, List.mem_cons_self, specifier, candidates, answer, rfl⟩
      | _ =>
        rcases ih with ⟨other, mem, specifier, candidates, same, fails⟩ | ⟨clear, same⟩
        · exact .inl ⟨other, List.mem_cons_of_mem spec mem, specifier, candidates, same, by rw [fails]; rfl⟩
        · refine .inr ⟨fun other mem specifier candidates => ?_, ?_⟩
          · rcases List.mem_cons.mp mem with rfl | mem
            · simp [answer]
            · exact clear other mem specifier candidates
          · rw [same, List.filterMap_cons, List.filterMap_cons]
            simp only [linked]
            cases w.found? u spec <;> cases w.missing? u spec <;> rfl

def withSheet (w : Web) (u : Url) (loaded : Loaded) : Except Failure Graph -> Except Failure Graph
  | .error e => .error e
  | .ok g => .ok { g with
      sheets := { url := u, dialect := loaded.dialect, replacements := loaded.replacements, imports := w.imports u }
        :: g.sheets
      missing := w.missing u ++ g.missing }

theorem answer_visit (told : w.Told i fixed) (entry : Url) {u : Url} {loaded : Loaded}
    (there : w.load u = some loaded) :
    (∃ spec ∈ w.specifiers u, ∃ specifier candidates, w.answer u spec = .ambiguous specifier candidates ∧
        ∀ limit known queue, (Graph.visit i entry (limit + 1) known (u :: queue)).answer fixed =
          .error (.ambiguous specifier candidates)) ∨
      (∀ spec ∈ w.specifiers u, ∀ specifier candidates, w.answer u spec ≠ .ambiguous specifier candidates) ∧
        ∀ limit known queue, (Graph.visit i entry (limit + 1) known (u :: queue)).answer fixed =
          w.withSheet u loaded ((Graph.visit i entry limit (known ++ Graph.newIn known (w.imports u))
            (queue ++ Graph.newIn known (w.imports u))).answer fixed) := by
  have specs : w.specifiers u = (Scan.ofText loaded.content).specifiers.filter fun s => !Graph.isHosts s.value := by
    rw [specifiers, there]
  have links := answer_links told u (Scan.ofText loaded.content).specifiers
  simp only [← specs] at links
  rcases links with ⟨spec, mem, specifier, candidates, ambiguous, fails⟩ | ⟨clear, same⟩
  · refine .inl ⟨spec, mem, specifier, candidates, ambiguous, fun limit known queue => ?_⟩
    rw [Graph.visit]
    simp only [Query.bind_eq, Query.answer_bind, told.load, there, fails]
    rfl
  · have same : (Graph.links i u (Scan.ofText loaded.content).specifiers).answer fixed =
        .ok { imports := w.imports u, missing := w.missing u } := same
    refine .inr ⟨clear, fun limit known queue => ?_⟩
    rw [Graph.visit]
    simp only [Query.bind_eq, Query.answer_bind, told.load, there, same]
    cases (Graph.visit i entry limit (known ++ Graph.newIn known (w.imports u))
      (queue ++ Graph.newIn known (w.imports u))).answer fixed <;> rfl

theorem answer_visit_unreadable (told : w.Told i fixed) (none : w.load entry = none) (limit : Nat)
    (known queue : List Url) :
    (Graph.visit i entry (limit + 1) known (entry :: queue)).answer fixed = .error (.unreadable entry) := by
  rw [Graph.visit]
  simp only [Query.bind_eq, Query.answer_bind, told.load, none]
  rw [if_pos trivial]
  rfl

/-- All that is reached lies in `bounds`, and it is there. -/
structure Within (w : Web) (entry : Url) (bounds : List Url) : Prop where
  entry : entry ∈ bounds
  imports : ∀ u, ∀ v ∈ w.imports u, v ∈ bounds
  there : ∀ u, ∀ v ∈ w.imports u, w.load v ≠ none

theorem Within.mem {bounds : List Url} (h : w.Within entry bounds) {n : Nat} {u : Url} (reached : w.Reaches entry n u) :
    u ∈ bounds ∧ (w.load u = none -> u = entry) := by
  cases reached with
  | entry => exact ⟨h.entry, fun _ => rfl⟩
  | step _ imported => exact ⟨h.imports _ _ imported, fun none => absurd none (h.there _ _ imported)⟩

theorem Frontier.length_le {bounds : List Url} (h : w.Frontier entry done queue level)
    (within : w.Within entry bounds) : done.length + queue.length <= bounds.length := by
  rw [← List.length_append]
  exact (h.nodup.subperm fun u mem => (within.mem (h.reached u mem)).1).length_le

theorem Ends.withSheet {u : Url} {loaded : Loaded} {answer : Except Failure Graph} (there : w.load u = some loaded)
    (clear : ∀ spec ∈ w.specifiers u, ∀ specifier candidates, w.answer u spec ≠ .ambiguous specifier candidates)
    (h : w.Ends entry (done ++ [u]) answer) : w.Ends entry done (w.withSheet u loaded answer) := by
  cases h with
  | failure failing => exact .failure failing
  | graph begins all sheets clearLater missing =>
    refine .graph begins (by simpa using all) ?_ ?_ (congrArg (w.missing u ++ ·) missing)
    · intro sheet mem
      rcases List.mem_cons.mp mem with rfl | mem
      · exact ⟨loaded, there, rfl, rfl, rfl⟩
      · exact sheets sheet mem
    · intro sheet mem
      rcases List.mem_cons.mp mem with rfl | mem
      · exact clear
      · exact clearLater sheet mem

theorem visit_ends (told : w.Told i fixed) {bounds : List Url} (within : w.Within entry bounds) {left : Nat}
    (frontier : w.Frontier entry done queue level) (enough : bounds.length <= done.length + left) :
    ∃ answer, (∀ limit, left <= limit ->
        (Graph.visit i entry limit (done ++ queue) queue).answer fixed = answer) ∧ w.Ends entry done answer := by
  -- On the steps left: each one takes a location from the queue, and no location comes back.
  induction left generalizing done queue level with
  | zero =>
    have length := frontier.length_le within
    have empty : queue = [] := List.length_eq_zero_iff.mp (by omega)
    subst empty
    refine ⟨.ok { entry, sheets := [], missing := [] }, fun limit _ => by cases limit <;> rfl, ?_⟩
    exact .graph rfl (by simpa using frontier) (by simp) (by simp) rfl
  | succ left ih =>
    cases queue with
    | nil =>
      refine ⟨.ok { entry, sheets := [], missing := [] }, fun limit _ => by cases limit <;> rfl, ?_⟩
      exact .graph rfl (by simpa using frontier) (by simp) (by simp) rfl
    | cons u queue =>
      have reached := frontier.reached u (List.mem_append_right done List.mem_cons_self)
      have more {limit : Nat} (long : left + 1 <= limit) : ∃ l, limit = l + 1 ∧ left <= l :=
        ⟨limit - 1, by omega, by omega⟩
      cases there : w.load u with
      | none =>
        -- Only the entry can be missing; all others were found among the files.
        obtain rfl := (within.mem reached).2 there
        refine ⟨_, fun limit long => ?_, .failure (.unreadable there)⟩
        obtain ⟨l, rfl, _⟩ := more long
        exact answer_visit_unreadable told there l _ queue
      | some loaded =>
        rcases answer_visit told entry there with ⟨spec, mem, specifier, candidates, ambiguous, fails⟩ | ⟨clear, same⟩
        · refine ⟨_, fun limit long => ?_, .failure (.ambiguous ⟨_, u, reached, spec, mem, ambiguous⟩)⟩
          obtain ⟨l, rfl, _⟩ := more long
          exact fails l _ queue
        · obtain ⟨answer, later, ends⟩ := ih frontier.step (by rw [List.length_append, List.length_singleton]; omega)
          refine ⟨w.withSheet u loaded answer, fun limit long => ?_, ends.withSheet there clear⟩
          obtain ⟨l, rfl, enoughLeft⟩ := more long
          rw [same, ← later l enoughLeft]
          simp

theorem visit_unlimited (told : w.Told i fixed) {bounds : List Url} (imports : ∀ u, w.imports u ⊆ bounds) (entry : Url)
    {left limit : Nat} {known : List Url} (nodup : known.Nodup) (inside : known ⊆ bounds)
    (enough : queue.length + bounds.length <= left + known.length) (more : left <= limit) :
    (Graph.visit i entry limit known queue).answer fixed = (Graph.visit i entry left known queue).answer fixed ∧
      ∀ count, (Graph.visit i entry left known queue).answer fixed ≠ .error (.tooManySheets count) := by
  have fits := (nodup.subperm inside).length_le
  -- On the steps left: each one takes a location from the queue, and one that is put there was not known.
  induction left generalizing limit known queue with
  | zero =>
    obtain rfl : queue = [] := List.length_eq_zero_iff.mp (by omega)
    cases limit <;> exact ⟨rfl, nofun⟩
  | succ left ih =>
    obtain ⟨limit, rfl⟩ : ∃ l, limit = l + 1 := ⟨limit - 1, by omega⟩
    have later : left <= limit := by omega
    cases queue with
    | nil => exact ⟨rfl, nofun⟩
    | cons u queue =>
      rw [List.length_cons] at enough
      cases there : w.load u with
      | none =>
        by_cases same : u = entry
        next =>
          subst same
          rw [answer_visit_unreadable told there, answer_visit_unreadable told there]
          exact ⟨rfl, nofun⟩
        next =>
          have skips (limit : Nat) : (Graph.visit i entry (limit + 1) known (u :: queue)).answer fixed =
              (Graph.visit i entry limit known queue).answer fixed := by
            rw [Graph.visit]
            simp only [Query.bind_eq, Query.answer_bind, told.load, there]
            rw [if_neg same]
          rw [skips, skips]
          exact ih nodup inside (by omega) later fits
      | some loaded =>
        rcases answer_visit told entry there with ⟨spec, mem, specifier, candidates, ambiguous, fails⟩ | ⟨clear, same⟩
        next =>
          rw [fails, fails]
          exact ⟨rfl, nofun⟩
        next =>
          let new := Graph.newIn known (w.imports u)
          have isNew {v : Url} (mem : v ∈ new) : v ∈ w.imports u ∧ v ∉ known := mem_newIn.mp mem
          have nodup' : (known ++ new).Nodup := List.nodup_append.mpr ⟨nodup, nodup_newIn known _, fun v old x mem equal =>
            (isNew mem).2 (equal ▸ old)⟩
          have inside' : known ++ new ⊆ bounds :=
            List.append_subset.mpr ⟨inside, fun v mem => imports u (isNew mem).1⟩
          have enough' : (queue ++ new).length + bounds.length <= left + (known ++ new).length := by
            simp only [List.length_append]
            omega
          obtain ⟨alike, limitless⟩ := ih nodup' inside' enough' later (nodup'.subperm inside').length_le
          rw [same, same, alike]
          refine ⟨rfl, fun count failed => limitless count ?_⟩
          unfold withSheet at failed
          split at failed
          next failure ended => rw [ended, failed]
          next => cases failed

theorem Ends.complete {answer : Except Failure Graph} (h : w.Ends entry [] answer) :
    (∀ g, answer = .ok g -> w.Complete entry g) ∧ (∀ failure, answer = .error failure -> w.Failing entry failure) ∧
      ((∃ failure, answer = .error failure) ↔ ∃ failure, w.Failing entry failure) := by
  cases h with
  | failure failing =>
    refine ⟨by simp, ?_, fun _ => ⟨_, failing⟩, fun _ => ⟨_, rfl⟩⟩
    rintro _ ⟨rfl⟩
    exact failing
  | @graph g level begins all sheets clear missing =>
    rw [List.nil_append] at all
    have whole : g.sheets.map (·.url) ++ [] = g.sheets.map (·.url) := List.append_nil _
    have isThere {u : Url} (mem : u ∈ g.sheets.map (·.url)) : ∃ sheet ∈ g.sheets, sheet.url = u := by
      simpa using mem
    refine ⟨?_, by simp, by simp, ?_⟩
    · rintro _ ⟨rfl⟩
      constructor
      case begins => exact begins
      case nodup => exact whole ▸ all.nodup
      case reached =>
        exact fun u => ⟨fun mem => ⟨_, all.reached u (List.mem_append_left [] mem)⟩,
          fun ⟨_, reached⟩ => (all.least reached).1⟩
      case ordered =>
        refine ⟨level, fun u mem => ⟨all.reached u (List.mem_append_left [] mem), fun n reached => ?_⟩,
          whole ▸ all.ascending⟩
        exact (all.least reached).2
      case sheets => exact sheets
      case closed =>
        intro sheet mem v imported
        obtain ⟨_, _, _, _, same⟩ := sheets sheet mem
        rw [same] at imported
        exact whole ▸ (all.followed sheet.url (List.mem_map_of_mem mem) v imported).1
      case missing => exact missing
    -- All that is reached was visited, so a failure would have ended the walk.
    · rintro ⟨failure, none | ⟨n, u, reached, spec, mem, ambiguous⟩⟩
      · obtain ⟨sheet, mem, rfl⟩ := isThere (all.least .entry).1
        obtain ⟨loaded, there, _⟩ := sheets sheet mem
        exact absurd (there.symm.trans none) (by simp)
      · obtain ⟨sheet, there, rfl⟩ := isThere (all.least reached).1
        exact absurd ambiguous (clear sheet there spec mem _ _)

end Web

end StylesheetImports
