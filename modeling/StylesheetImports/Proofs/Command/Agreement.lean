import StylesheetImports.Proofs.Command.Check
import StylesheetImports.Proofs.Resolve.Rooted
import StylesheetImports.Proofs.Storage.Start

set_option autoImplicit false

namespace StylesheetImports

open FileTree Query

namespace FileTree

variable {A : Type} {t : FileTree}

theorem rooted_startingAt (t : FileTree) (place : List Bytes) : t.view.Rooted (t.startingAt place).view := by
  constructor
  next =>
    intro dir absolute
    simp only [view]
    rw [list_startingAt (Path.isAbsolute_normalize absolute)]
  next =>
    intro file usable
    simp only [view]
    rcases usable with absolute | empty
    next => rw [read_startingAt absolute]
    next =>
      have unusable : check file = .error .notFound := by simp [check, empty]
      have unread (t : FileTree) : t.read file = .error .notFound := by
        rw [FileTree.read, FileTree.node, locate, unusable]
        rfl
      rw [unread, unread]

theorem lookup_startingAt (mark : String) (place : List Bytes) (c : DirectoryCache) {dir : Path}
    (absolute : dir.isAbsolute = true) : (((disk mark).lookup dir).run c).run (t.startingAt place) =
      (((((disk mark).lookup dir).run c).run t).1, t.startingAt place) := by
  rw [run_lookup, run_lookup, list_startingAt (Path.isAbsolute_normalize absolute)]
  cases c.get? dir with
  | some d => rfl
  | none => cases t.list dir.normalize <;> rfl

theorem ask_startingAt (mark : String) (place : List Bytes) {q : Query A} (grounded : q.Grounded t.view)
    {c : DirectoryCache} (faithful : c.Faithful t.view) :
    (((disk mark).ask c q).run (t.startingAt place)).1 = (((disk mark).ask c q).run t).1 := by
  have rooted := rooted_startingAt t place
  induction q generalizing c with
  | done a => rfl
  | directory memory dir next ih =>
    obtain ⟨absolute, later⟩ := grounded
    obtain ⟨filled, looked, still⟩ := lookup_view mark t faithful dir
    have looked' := lookup_startingAt (t := t) mark place c absolute
    rw [looked] at looked'
    have asked (t : FileTree) : ((disk mark).ask c (.directory memory dir next)).run t =
        let found := (((disk mark).lookup dir).run c).run t
        ((disk mark).ask found.1.2 (next found.1.1)).run found.2 := rfl
    rw [asked, asked, looked, looked']
    exact ih _ later still
  | text file next ih =>
    obtain ⟨usable, later⟩ := grounded
    have asked (t : FileTree) : ((disk mark).ask c (.text file next)).run t =
        let found := (((disk mark).answers.text file).run c).run t
        ((disk mark).ask found.1.2 (next found.1.1)).run found.2 := rfl
    rw [asked, asked, text_view, text_view, rooted.text file usable]
    exact ih _ later faithful
  | record location map next ih => exact ih grounded faithful

end FileTree

namespace Command

variable {A B C D : Type} {mark : String} {t : FileTree} {place : List Bytes}

inductive Ends (place : List Bytes) (R : A -> B -> FileTree -> Prop) :
    Except Failure A × FileTree -> Except Failure B × FileTree -> Prop
  | failed (e e' : Failure) (t : FileTree) : Ends place R (.error e, t) (.error e', t.startingAt place)
  | ok {a : A} {b : B} {t : FileTree} (both : R a b t) : Ends place R (.ok a, t) (.ok b, t.startingAt place)

/-- Two programs do alike on a tree, and on the same tree starting at `place`. -/
def Agree (t : FileTree) (place : List Bytes) (R : A -> B -> FileTree -> Prop)
    (x : ExceptT Failure (StateM FileTree) A) (y : ExceptT Failure (StateM FileTree) B) : Prop :=
  Ends place R (x.run.run t) (y.run.run (t.startingAt place))

theorem agree_pure {R : A -> B -> FileTree -> Prop} {a : A} {b : B} (both : R a b t) :
    Agree t place R (pure a) (pure b) :=
  .ok both

theorem agree_throw (R : A -> B -> FileTree -> Prop) (e e' : Failure) :
    Agree t place R (throw e) (throw e') :=
  .failed e e' t

theorem Agree.bind {R : A -> B -> FileTree -> Prop} {R' : C -> D -> FileTree -> Prop}
    {x : ExceptT Failure (StateM FileTree) A} {y : ExceptT Failure (StateM FileTree) B}
    {f : A -> ExceptT Failure (StateM FileTree) C} {g : B -> ExceptT Failure (StateM FileTree) D}
    (first : Agree t place R x y) (further : ∀ a b t', R a b t' -> Agree t' place R' (f a) (g b)) :
    Agree t place R' (x >>= f) (y >>= g) := by
  unfold Agree at first ⊢
  generalize ran : x.run.run t = left at first
  generalize ran' : y.run.run (t.startingAt place) = right at first
  cases first with
  | failed e e' t' =>
    rw [run_bind_error ran, run_bind_error ran']
    exact .failed e e' t'
  | ok both =>
    rw [run_bind_ok ran, run_bind_ok ran']
    exact further _ _ _ both

theorem agree_failed (R : A -> B -> FileTree -> Prop) {x : ExceptT Failure (StateM FileTree) A}
    {y : ExceptT Failure (StateM FileTree) B} (failed : ∃ e, x.run.run t = (.error e, t))
    (failed' : ∃ e, y.run.run (t.startingAt place) = (.error e, t.startingAt place)) : Agree t place R x y := by
  obtain ⟨e, ran⟩ := failed
  obtain ⟨e', ran'⟩ := failed'
  unfold Agree
  rw [ran, ran']
  exact .failed e e' t

theorem Agree.ran {R : A -> B -> FileTree -> Prop} {x : ExceptT Failure (StateM FileTree) A}
    {y : ExceptT Failure (StateM FileTree) B} (agree : Agree t place R x y) :
    Agree t place (fun a b t' => R a b t' ∧ x.run.run t = (.ok a, t')) x y := by
  unfold Agree at agree ⊢
  generalize x.run.run t = left at agree ⊢
  generalize y.run.run (t.startingAt place) = right at agree ⊢
  cases agree with
  | failed e e' t' => exact .failed e e' t'
  | ok both => exact .ok ⟨both, rfl⟩

theorem agree_except (v : Except Failure A) :
    Agree t place (fun a b t' => a = b ∧ v = .ok a ∧ t = t') (liftM v) (liftM v) := by
  cases v with
  | error e => exact .failed e e t
  | ok a => exact .ok ⟨rfl, rfl, rfl⟩

theorem agree_startless {x : StateM FileTree A} (startless : Startless x) :
    Agree t place (fun a b _ => a = b) (liftM x) (liftM x) := by
  unfold Agree
  rw [run_liftM, run_liftM, startless t place]
  exact .ok rfl

structure Remembered (t : FileTree) (place : List Bytes) (clean : Prop) (c c' : DirectoryCache) : Prop where
  faithful : c.Faithful t.view
  faithful' : c'.Faithful (t.startingAt place).view
  same : clean -> c = c'

theorem remembered_empty (t : FileTree) (place : List Bytes) (clean : Prop) : Remembered t place clean .empty .empty :=
  ⟨DirectoryCache.faithful_empty _, DirectoryCache.faithful_empty _, fun _ => rfl⟩

theorem agree_ask {q : Query A} {clean : Prop} (steady : q.Steady t.view (t.startingAt place).view clean)
    {c c' : DirectoryCache} (both : Remembered t place clean c c') :
    Agree t place (fun a b t' => a.1 = b.1 ∧ Remembered t place clean a.2 b.2 ∧ t = t')
      (liftM ((disk mark).ask c q)) (liftM ((disk mark).ask c' q)) := by
  obtain ⟨filled, asked, kept⟩ := ask_view mark t q both.faithful
  obtain ⟨filled', asked', kept'⟩ := ask_view mark (t.startingAt place) q both.faithful'
  have same (ok : clean) : filled = filled' := by
    have left := ask_startingAt mark place (steady.grounded ok) both.faithful
    rw [← both.same ok] at asked'
    rw [asked, asked'] at left
    exact (congrArg Prod.snd left).symm
  unfold Agree
  rw [run_liftM, run_liftM, asked, asked']
  exact .ok ⟨steady.eval.symm, ⟨kept, kept', same⟩, rfl⟩

end Command

end StylesheetImports
