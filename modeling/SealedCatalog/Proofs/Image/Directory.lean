import SealedCatalog.Proofs.Action.Attempt
import SealedCatalog.Proofs.Path

/-! Images are looked for nowhere but among the children of their directory. A name that is not bare
is refused before any file is looked at, and so an export looks at the catalog and at most one child
of the directory. -/

namespace SealedCatalog

namespace ImageDirectory

variable {directory name : String}

theorem load_of_isBareName (bare : Path.IsBareName name) :
    load directory name = do return found (← Inquiry.content (Path.join directory name)) :=
  if_pos (Path.fileName?_eq_self_iff.mpr bare)

theorem load_of_not_isBareName (leading : ¬ Path.IsBareName name) :
    load directory name = return .error (.imageNameRefused name) :=
  if_neg (mt Path.fileName?_eq_self_iff.mp leading)

theorem mem_places_load_iff {view : FileView} {place : String} :
    place ∈ (load directory name).places view ↔
      Path.IsBareName name ∧ place = Path.join directory name := by
  rcases Decidable.em (Path.IsBareName name) with bare | leading
  · rw [load_of_isBareName bare, and_iff_right bare]
    exact List.mem_singleton
  · rw [load_of_not_isBareName leading]
    exact iff_of_false List.not_mem_nil fun both => leading both.1

/-- Whatever the files are, the image of a bare name is what the directory's child of that name
holds, and only that child is looked at. Any other name is refused, and nothing is looked at. -/
theorem load_stays_inside (directory stem : String) (format : ImageFormat) :
    let name := format.fileName stem
    let child := Path.join directory name
    (Path.IsBareName name → Path.parts child = Path.parts directory ++ [.name name] ∧
      ∀ view, (load directory name).places view = [child] ∧
        (load directory name).answer view = found (view.content child)) ∧
    (¬ Path.IsBareName name → ∀ view, (load directory name).places view = [] ∧
      (load directory name).answer view = .error (.imageNameRefused name)) := by
  intro name child
  constructor
  · intro bare
    refine ⟨Path.parts_join directory bare, fun view => ?_⟩
    rw [load_of_isBareName bare]
    exact ⟨rfl, rfl⟩
  · intro leading view
    rw [load_of_not_isBareName leading]
    exact ⟨rfl, rfl⟩

example : ["cover.webp", "", ".", "..", "../x", "a/../b", "x/", "/etc/x", "a/.", "./x"].filter
    Path.IsBareName = ["cover.webp"] := by
  decide

end ImageDirectory

namespace Action

/-- An export looks at the catalog, and otherwise at the image's own place in the directory. -/
theorem mem_places_exportImage {context : ActionContext} {files : FileTree} {access : Access}
    {directory stem output place : String} {thumbnail : Bool}
    (looked : place ∈ Attempt.places
      (attempt context (.exportImage access directory stem thumbnail output)) files) :
    place = access.catalog ∨ ∃ format : ImageFormat,
      Path.IsBareName (format.fileName stem) ∧ place = Path.join directory (format.fileName stem) := by
  rw [attempt] at looked
  rcases Attempt.mem_places_bind.mp looked with unlocking | ⟨catalog, _, after⟩
  · exact .inl (Attempt.mem_places_unlock unlocking)
  dsimp only at after
  split at after
  · rcases Attempt.mem_places_bind.mp after with throwing | ⟨_, failed, _⟩
    · cases throwing
    · cases failed
  rcases Attempt.mem_places_bind.mp after with loading | ⟨found, _, opening⟩
  · rw [Attempt.places_lift, ImageDirectory.mem_places_load_iff] at loading
    exact .inr ⟨_, loading⟩
  · rcases Attempt.mem_places_bind.mp opening with opened | ⟨image, _, reported⟩
    · cases opened
    · cases reported

end Action

end SealedCatalog
