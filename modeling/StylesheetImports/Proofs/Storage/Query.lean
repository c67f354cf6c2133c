import StylesheetImports.Storage.Query

set_option autoImplicit false

namespace StylesheetImports

def View.answers (view : View) : Answers Id :=
  { directory := fun _ dir => view.directory dir, text := view.text, record := fun _ _ => () }

-- What a build is told, with its own memory of directories alone.
def Answers.own (fixed : Answers Id) : View :=
  { directory := fixed.directory .own, text := fixed.text }

namespace Query

variable {A B : Type} (fixed : Answers Id)

def answer (q : Query A) : A :=
  q.run fixed

@[simp] theorem answer_done (a : A) : (Query.done a).answer fixed = a := rfl

@[simp] theorem answer_bind (q : Query A) (f : A -> Query B) :
    (q.bind f).answer fixed = (f (q.answer fixed)).answer fixed := by
  induction q with
  | done a => rfl
  | directory memory dir next ih => exact ih _
  | text file next ih => exact ih _
  | record location map next ih => exact ih

@[simp] theorem answer_lookup (dir : Path) : (lookup dir).answer fixed = fixed.directory .own dir := rfl

@[simp] theorem answer_read (file : Path) : (read file).answer fixed = fixed.text file := rfl

theorem eval_eq_answer (view : View) (q : Query A) : q.eval view = q.answer view.answers := by
  induction q with
  | done a => rfl
  | directory memory dir next ih => exact ih _
  | text file next ih => exact ih _
  | record location map next ih => exact ih

end Query

end StylesheetImports
