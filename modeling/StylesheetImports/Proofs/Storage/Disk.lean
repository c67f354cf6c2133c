import StylesheetImports.Proofs.Build.Asking
import StylesheetImports.Storage.Disk

set_option autoImplicit false

namespace StylesheetImports

namespace DirectoryCache

-- What is remembered is what the view tells.
def Faithful (view : View) (c : DirectoryCache) : Prop :=
  ∀ dir d, c.get? dir = some d -> view.directory dir = some d

variable {view : View} {c : DirectoryCache}

theorem faithful_empty (view : View) : Faithful view .empty :=
  fun _ _ held => nomatch held

theorem Faithful.set (h : c.Faithful view) {dir : Path} {d : Directory} (now : view.directory dir = some d)
    (spelled : ∀ other : Path, other.normalize = dir.normalize -> view.directory other = view.directory dir) :
    (c.set dir d).Faithful view := by
  intro other found held
  rw [get?_set] at held
  by_cases same : other.normalize = dir.normalize
  next =>
    rw [if_pos same] at held
    rw [spelled other same, now, held]
  next =>
    rw [if_neg same] at held
    exact h other found held

end DirectoryCache

namespace FileTree

variable {A : Type}

def view (t : FileTree) : View :=
  { directory := fun dir => (t.list dir.normalize).toOption.map Directory.ofListing
    text := fun file => (t.read file).toOption.map fun bytes => String.ofList (Utf8.decodeLossy bytes) }

theorem run_lookup (mark : String) (t : FileTree) (c : DirectoryCache) (dir : Path) :
    (((disk mark).lookup dir).run c).run t =
      match c.get? dir with
      | some known => ((some known, c), t)
      | none =>
        match t.list dir.normalize with
        | .error _ => ((none, c), t)
        | .ok listing => ((some (.ofListing listing), c.set dir (.ofListing listing)), t) := by
  simp only [Disk.lookup, disk, diskWith, StateT.run_bind, StateT.run_get, pure_bind]
  cases c.get? dir with
  | some known => rfl
  | none =>
    simp only [StateT.run_bind, StateT.run_monadLift, monadLift_self, bind_assoc, pure_bind, StateT.run_get]
    cases t.list dir.normalize <;> rfl

theorem lookup_view (mark : String) (t : FileTree) {c : DirectoryCache} (faithful : c.Faithful t.view) (dir : Path) :
    ∃ filled, (((disk mark).lookup dir).run c).run t = ((t.view.directory dir, filled), t) ∧
      filled.Faithful t.view := by
  rw [run_lookup]
  cases held : c.get? dir with
  | some d => exact ⟨c, by rw [faithful dir d held], faithful⟩
  | none =>
    cases listed : t.list dir.normalize with
    | error e => exact ⟨c, by simp [view, listed, Except.toOption], faithful⟩
    | ok listing =>
      have now : t.view.directory dir = some (.ofListing listing) := by simp [view, listed, Except.toOption]
      have spelled (other : Path) (same : other.normalize = dir.normalize) :
          t.view.directory other = t.view.directory dir := by simp only [view, same]
      exact ⟨c.set dir (.ofListing listing), by rw [now], faithful.set now spelled⟩

theorem text_view (mark : String) (t : FileTree) (c : DirectoryCache) (file : Path) :
    (((disk mark).answers.text file).run c).run t = ((t.view.text file, c), t) := by
  simp only [Disk.answers, Disk.readLossy, disk, diskWith, view, StateT.run_bind, StateT.run_monadLift, monadLift_self,
    bind_assoc, pure_bind, StateT.run_get]
  cases t.read file <;> rfl

def asText : Except FileFault Bytes -> Except FileFault String
  | .error e => .error e
  | .ok bytes => (Utf8.decode? bytes).elim (.error .notText) fun text => .ok (String.ofList text)

theorem run_readText (mark : String) (t : FileTree) (file : Path) :
    ((disk mark).readText file).run t = pure (asText (t.read file), t) := by
  simp only [Disk.readText, disk, diskWith, StateT.run_bind, StateT.run_get, StateT.run_pure, pure_bind]
  cases t.read file with
  | error e => rfl
  | ok bytes =>
    dsimp only [asText]
    cases Utf8.decode? bytes <;> rfl

theorem ask_view (mark : String) (t : FileTree) (q : Query A) {c : DirectoryCache} (faithful : c.Faithful t.view) :
    ∃ filled, ((disk mark).ask c q).run t = ((q.eval t.view, filled), t) ∧ filled.Faithful t.view := by
  induction q generalizing c with
  | done a => exact ⟨c, rfl, faithful⟩
  | directory memory dir next ih =>
    obtain ⟨filled, looked, still⟩ := lookup_view mark t faithful dir
    obtain ⟨later, asked, kept⟩ := ih (t.view.directory dir) still
    refine ⟨later, ?_, kept⟩
    simp only [Disk.ask, Query.run, StateT.run_bind] at asked ⊢
    change (((disk mark).lookup dir).run c).run t >>= _ = _
    rw [looked]
    exact asked
  | text file next ih =>
    obtain ⟨later, asked, kept⟩ := ih (t.view.text file) faithful
    refine ⟨later, ?_, kept⟩
    simp only [Disk.ask, Query.run, StateT.run_bind] at asked ⊢
    rw [text_view]
    exact asked
  | record location map next ih => exact ih faithful

end FileTree

end StylesheetImports
