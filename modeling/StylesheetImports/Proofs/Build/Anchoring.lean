import Mathlib.Data.List.Forall2
import StylesheetImports.Build.Config
import StylesheetImports.Proofs.Path.Spelling

set_option autoImplicit false

namespace StylesheetImports

namespace Path

/-- `q` is the path `p` once it is read from the directory `base`. -/
structure IsAnchored (base p q : Path) : Prop where
  absolute : q.isAbsolute = true
  normal : q.normalize = q
  leads : q = (base.join p).normalize

theorem isAnchored_absolutize {base : Path} (absolute : base.isAbsolute = true) (p : Path) :
    IsAnchored base p (base.absolutize p) :=
  ⟨isAbsolute_absolutize absolute p, normalize_absolutize base p, rfl⟩

theorem absolutize_absolutize (outer inner p : Path) :
    outer.absolutize (inner.absolutize p) = (outer.join inner).absolutize p := by
  rw [absolutize, absolutize, normalize_join_normalize, normalize_join_join, absolutize]

end Path

namespace Config

theorem resolveFrom_resolveFrom (c : Config) (inner outer : Path) :
    (c.resolveFrom inner).resolveFrom outer = c.resolveFrom (outer.join inner) := by
  have twice : outer.absolutize ∘ inner.absolutize = (outer.join inner).absolutize :=
    funext (Path.absolutize_absolutize outer inner)
  simp only [resolveFrom, Option.map_map, List.map_map, twice]

/-- Read from an absolute directory, each path of the settings becomes absolute and normal, in its old place, and no
later directory changes it. What is read from two directories is read from the two joined. The rest of the settings is
kept. -/
theorem resolveFrom_anchors (c : Config) (base : Path) :
    (base.isAbsolute = true ->
        Option.Rel base.IsAnchored c.entry (c.resolveFrom base).entry ∧
          List.Forall₂ base.IsAnchored c.loadPaths (c.resolveFrom base).loadPaths ∧
          ∀ other, (c.resolveFrom base).resolveFrom other = c.resolveFrom base) ∧
      (c.resolveFrom base).packageMarks = c.packageMarks ∧ (c.resolveFrom base).sourceMaps = c.sourceMaps ∧
      ∀ inner, (c.resolveFrom inner).resolveFrom base = c.resolveFrom (base.join inner) := by
  refine ⟨fun absolute => ⟨?_, ?_, fun other => ?_⟩, rfl, rfl, fun inner => resolveFrom_resolveFrom c inner base⟩
  · rw [resolveFrom]
    cases c.entry with
    | none => exact .none
    | some p => exact .some (Path.isAnchored_absolutize absolute p)
  · rw [resolveFrom, List.forall₂_map_right_iff, List.forall₂_same]
    exact fun p _ => Path.isAnchored_absolutize absolute p
  · -- An absolute directory is what it is under any other.
    rw [resolveFrom_resolveFrom, Path.join_of_absolute other absolute]

-- Settings with a `..` above where they start, a `.`, an empty path and one that begins at the root.
def dotted : Config :=
  { Config.default with entry := some "../s/./main.scss", loadPaths := ["lib/..", "", "../..", "/opt//x/../y"] }

theorem resolveFrom_anchors_dotted :
    (Path.ofString "/w/p").isAbsolute = true ∧
      (dotted.resolveFrom "/w/p").entry = some "/w/s/main.scss" ∧
      (dotted.resolveFrom "/w/p").loadPaths = ["/w/p", "/w/p", "/", "/opt/y"] ∧
      (dotted.resolveFrom "/w/p").resolveFrom "/other" = dotted.resolveFrom "/w/p" ∧
      (dotted.resolveFrom "../q").loadPaths = ["../q", "../q", "../..", "/opt/y"] ∧
      (dotted.resolveFrom "../q").resolveFrom "/w/p" = dotted.resolveFrom "/w/p/../q" := by
  have absolute : (Path.ofString "/w/p").isAbsolute = true := by decide +kernel
  obtain ⟨anchored, -, -, twice⟩ := resolveFrom_anchors dotted "/w/p"
  have joined : (Path.ofString "/w/p").join "../q" = "/w/p/../q" := by decide +kernel
  refine ⟨absolute, by decide +kernel, by decide +kernel, (anchored absolute).2.2 "/other", by decide +kernel, ?_⟩
  rw [← joined]
  exact twice "../q"

end Config

end StylesheetImports
