import StylesheetImports.Storage.Query
import StylesheetImports.Url.Basic

set_option autoImplicit false

namespace StylesheetImports

inductive Resolution where
  | found (location : Url)
  | absent
  | ambiguous (specifier : String) (candidates : List Path)
  deriving DecidableEq

namespace Resolution

def ofLocation? : Option Url -> Resolution
  | some u => .found u
  | none => .absent

def orElse (r other : Resolution) : Resolution :=
  match r with
  | .absent => other
  | r => r

@[simp] theorem absent_orElse (r : Resolution) : absent.orElse r = r := rfl

@[simp] theorem orElse_absent (r : Resolution) : r.orElse .absent = r := by
  cases r <;> rfl

theorem orElse_assoc (a b c : Resolution) : (a.orElse b).orElse c = a.orElse (b.orElse c) := by
  cases a <;> rfl

end Resolution

abbrev Resolver := (specifier : String) -> (fromImport : Bool) -> Query Resolution

namespace Resolver

def first : List (Query Resolution) -> Query Resolution
  | [] => pure .absent
  | q :: rest => do
    match ← q with
    | .absent => first rest
    | r => pure r

def chain (resolvers : List Resolver) : Resolver := fun specifier fromImport =>
  first (resolvers.map (fun resolve => resolve specifier fromImport))

theorem eval_first_cons (view : View) (q : Query Resolution) (rest : List (Query Resolution)) :
    (first (q :: rest)).eval view = (q.eval view).orElse ((first rest).eval view) := by
  simp only [first, Query.bind_eq, Query.eval_bind]
  cases q.eval view <;> rfl

end Resolver

end StylesheetImports
