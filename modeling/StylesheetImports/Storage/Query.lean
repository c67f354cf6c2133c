import StylesheetImports.Path.Basic
import StylesheetImports.Rebase.OffsetMap
import StylesheetImports.Storage.Directory
import StylesheetImports.Url.Basic

/-!
Questions to a store of files. A query looks directories up, reads files, and reports what it replaced in
them; what it asks next may hang on the answers. It does not know whether the answers come from memory,
from a disk or from a fixed view. `run` answers a query by given means, and `eval` by a fixed view.
-/

set_option autoImplicit false

namespace StylesheetImports

inductive Memory where
  | own
  | common
  deriving DecidableEq

/-- A question whose answer is of type `A`. -/
inductive Query (A : Type) where
  | done (a : A)
  | directory (memory : Memory) (dir : Path) (next : Option Directory -> Query A)
  | text (file : Path) (next : Option String -> Query A)
  | record (location : Url) (map : OffsetMap) (next : Query A)

/-- Fixed answers to the questions about directories and files. All memories tell the same. -/
structure View where
  directory : Path -> Option Directory
  text : Path -> Option String

structure Answers (m : Type -> Type) where
  directory : Memory -> Path -> m (Option Directory)
  text : Path -> m (Option String)
  record : Url -> OffsetMap -> m Unit

namespace Query

variable {A B : Type}

def bind : Query A -> (A -> Query B) -> Query B
  | .done a, f => f a
  | .directory memory dir next, f => .directory memory dir (fun answer => (next answer).bind f)
  | .text file next, f => .text file (fun answer => (next answer).bind f)
  | .record location map next, f => .record location map (next.bind f)

instance : Monad Query where
  pure := .done
  bind := bind

def lookup (dir : Path) : Query (Option Directory) :=
  .directory .own dir .done

def read (file : Path) : Query (Option String) :=
  .text file .done

def report (location : Url) (map : OffsetMap) : Query Unit :=
  .record location map (.done ())

-- The same question, with every directory looked up in the memory that builds have in common.
def inCommon : Query A -> Query A
  | .done a => .done a
  | .directory _ dir next => .directory .common dir (fun answer => (next answer).inCommon)
  | .text file next => .text file (fun answer => (next answer).inCommon)
  | .record location map next => .record location map next.inCommon

def eval (view : View) : Query A -> A
  | .done a => a
  | .directory _ dir next => (next (view.directory dir)).eval view
  | .text file next => (next (view.text file)).eval view
  | .record _ _ next => next.eval view

def run {m : Type -> Type} [Monad m] (answers : Answers m) : Query A -> m A
  | .done a => pure a
  | .directory memory dir next => do (next (← answers.directory memory dir)).run answers
  | .text file next => do (next (← answers.text file)).run answers
  | .record location map next => do
    answers.record location map
    next.run answers

@[simp] theorem bind_eq (q : Query A) (f : A -> Query B) : q >>= f = q.bind f := rfl

@[simp] theorem pure_eq (a : A) : (pure a : Query A) = .done a := rfl

@[simp] theorem eval_done (view : View) (a : A) : (Query.done a).eval view = a := rfl

@[simp] theorem eval_lookup (view : View) (dir : Path) : (lookup dir).eval view = view.directory dir :=
  rfl

@[simp] theorem eval_read (view : View) (file : Path) : (read file).eval view = view.text file := rfl

@[simp] theorem eval_bind (view : View) (q : Query A) (f : A -> Query B) :
    (q.bind f).eval view = (f (q.eval view)).eval view := by
  induction q with
  | done a => rfl
  | directory memory dir next ih => exact ih _
  | text file next ih => exact ih _
  | record location map next ih => exact ih

@[simp] theorem eval_inCommon (view : View) (q : Query A) : q.inCommon.eval view = q.eval view := by
  induction q with
  | done a => rfl
  | directory memory dir next ih => exact ih _
  | text file next ih => exact ih _
  | record location map next ih => exact ih

theorem bind_done (q : Query A) : q.bind .done = q := by
  induction q with
  | done a => rfl
  | directory memory dir next ih => simp [bind, ih]
  | text file next ih => simp [bind, ih]
  | record location map next ih => simp [bind, ih]

theorem bind_bind {C : Type} (q : Query A) (f : A -> Query B) (g : B -> Query C) :
    (q.bind f).bind g = q.bind (fun a => (f a).bind g) := by
  induction q with
  | done a => rfl
  | directory memory dir next ih => simp [bind, ih]
  | text file next ih => simp [bind, ih]
  | record location map next ih => simp [bind, ih]

instance : LawfulMonad Query :=
  LawfulMonad.mk' Query bind_done (fun _ _ => rfl) bind_bind

end Query

end StylesheetImports
