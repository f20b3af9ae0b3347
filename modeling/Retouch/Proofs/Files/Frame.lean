import Retouch.CommandLine.Run
import Retouch.Proofs.Files.Appending

/-!
# What keeping an output leaves alone

Keeping an output makes directories where nothing is and writes the file that the output goes to,
whether this works out or not. Each step puts a node where no directory was, so every path leads
where it led before, and a file that the output does not go to keeps its bytes.
-/

namespace Retouch

namespace FileTree

/-- Whether one tree comes of another by putting nodes where no directory was and not at a place
that is kept. -/
inductive Spares (kept : Place) (tree : FileTree) : FileTree → Prop where
  | refl : Spares kept tree tree
  | put {after : FileTree} {place : Place} (node : FileNode) (spares : Spares kept tree after)
      (notDirectory : after.nodeAt? place ≠ some .directory) (elsewhere : place ≠ kept) :
      Spares kept tree (after.put place node)

variable {kept target place : Place} {tree after final : FileTree} {path other : Path}
    {content : Bytes}

namespace Spares

theorem trans (first : Spares kept tree after) (second : Spares kept after final) :
    Spares kept tree final := by
  induction second with
  | refl => exact first
  | put node _ notDirectory elsewhere ih => exact .put node ih notDirectory elsewhere

theorem nodeAt?_kept (spares : Spares kept tree after) :
    after.nodeAt? kept = tree.nodeAt? kept := by
  induction spares with
  | refl => rfl
  | put node _ _ elsewhere ih => rw [nodeAt?_put_of_ne elsewhere.symm, ih]

/-- Every path leads where it led before. -/
theorem place_eq (spares : Spares kept tree after) (leads : tree.place path = .ok place) :
    after.place path = .ok place := by
  induction spares with
  | refl => exact leads
  | put node _ notDirectory _ ih => exact place_put notDirectory ih

theorem hasDirectory (spares : Spares kept tree after)
    (isThere : tree.hasDirectory path = .ok true) :
    after.hasDirectory path = .ok true := by
  induction spares with
  | refl => exact isThere
  | put node _ notDirectory _ ih => exact hasDirectory_put notDirectory ih

theorem isReady (spares : Spares kept tree after) (leads : tree.place path = .ok kept)
    (ready : tree.IsReady path content) : after.IsReady path content where
  parent := spares.hasDirectory ready.parent
  isFile := by
    rcases node?_eq_some_iff.mp ready.isFile with ⟨place, leadsThere, isFile⟩
    obtain rfl : kept = place := Except.ok.inj (leads.symm.trans leadsThere)
    refine node?_eq_some_iff.mpr ⟨kept, spares.place_eq leads, ?_⟩
    rw [spares.nodeAt?_kept, isFile]

theorem andThen {Error : Type} {progress : Progress FileTree Error}
    {step : FileTree → Progress FileTree Error} (first : Spares kept tree progress.state)
    (second : Spares kept progress.state (step progress.state).state) :
    Spares kept tree (progress.andThen step).state := by
  unfold Progress.andThen
  split
  · exact first.trans second
  · exact first

end Spares

/-! ## Directories -/

theorem spares_makeDirectory (isThere : tree.nodeAt? kept ≠ none) (path : Path) :
    Spares kept tree (tree.makeDirectory path).state := by
  unfold makeDirectory
  split
  · exact .refl
  · next place leads =>
      split
      · exact .refl
      · next isMissing =>
          refine .put _ .refl (by simp [isMissing]) ?_
          rintro rfl
          exact isThere isMissing

theorem spares_ensureDirectory (isThere : tree.nodeAt? kept ≠ none) (path : Path) :
    Spares kept tree (tree.ensureDirectory path).state := by
  unfold ensureDirectory
  split
  · exact .refl
  · exact spares_makeDirectory isThere path

theorem spares_ensureDirectoriesUpTo (isThere : tree.nodeAt? kept ≠ none) (path : Path)
    (count : Nat) :
    Spares kept tree (tree.ensureDirectoriesUpTo path count).state := by
  induction count generalizing path with
  | zero => exact spares_ensureDirectory isThere path
  | succ count ih =>
      unfold ensureDirectoriesUpTo
      split
      · have parents := ih path.parent
        refine parents.andThen (spares_ensureDirectory ?_ path)
        rwa [parents.nodeAt?_kept]
      · exact spares_ensureDirectory isThere path

theorem spares_ensureDirectories (isThere : tree.nodeAt? kept ≠ none) (path : Path) :
    Spares kept tree (tree.ensureDirectories path).state :=
  spares_ensureDirectoriesUpTo isThere path path.names.length

/-! ## Files -/

/-- Writing puts a file where the path leads. -/
theorem spares_write (apart : tree.place path ≠ .ok kept) (bytes : Bytes) :
    Spares kept tree (tree.write path bytes).state := by
  unfold write modify
  split
  · exact .refl
  · next place leads =>
      have elsewhere : place ≠ kept := by
        rintro rfl
        exact apart leads
      split
      · exact .refl
      · next isFile => exact .put _ .refl (by simp [isFile]) elsewhere
      · next isMissing => exact .put _ .refl (by simp [isMissing]) elsewhere

/-- Whether a path leads elsewhere than another one once the directories on the way to it are
made. -/
def IsApart (tree : FileTree) (path other : Path) : Prop :=
  ∀ place, (tree.ensureDirectories path.parent).state.place path = .ok place →
    tree.place other ≠ .ok place

theorem IsApart.place_ne (apart : tree.IsApart path other) (leads : tree.place other = .ok kept) :
    (tree.ensureDirectories path.parent).state.place path ≠ .ok kept := by
  intro same
  exact apart kept same leads

end FileTree

/-! ## Outputs -/

/-- What is relied on of a library that saves a picture: it writes to the file of the path or
changes nothing, and if it fails it tells why. -/
structure PictureLibrary.IsReliable (library : PictureLibrary) : Prop where
  writes : ∀ tree path mode image, (library.save tree path mode image).state = tree ∨
    ∃ content, (library.save tree path mode image).state = (tree.write path content).state
  tells : ∀ tree path mode image failure,
    (library.save tree path mode image).error = some failure → failure.IsTold

section Outputs

variable {library : PictureLibrary} (reliable : library.IsReliable) {kept : Place}
  {tree : FileTree} {path other : Path}

include reliable

theorem PictureLibrary.spares_save (apart : tree.place path ≠ .ok kept) (mode : PictureMode)
    (image : RawImage) : tree.Spares kept (library.save tree path mode image).state := by
  rcases reliable.writes tree path mode image with same | ⟨content, written⟩
  · rw [same]
    exact .refl
  · rw [written]
    exact FileTree.spares_write apart content

theorem PictureFile.spares_save (apart : tree.IsApart path other)
    (leads : tree.place other = .ok kept) (isThere : tree.nodeAt? kept ≠ none)
    (image : RawImage) :
    tree.Spares kept (save library tree path image).state := by
  have made : tree.Spares kept
      ((tree.ensureDirectories path.parent).mapError FileError.failure).state :=
    FileTree.spares_ensureDirectories isThere path.parent
  exact made.andThen
    (PictureLibrary.spares_save reliable (apart.place_ne leads) (modeFor path) image)

/-- Keeping an output leaves a file alone to which the output does not go, whether it works out or
not. -/
theorem Run.spares_keep (apart : tree.IsApart path other) (leads : tree.place other = .ok kept)
    (isThere : tree.nodeAt? kept ≠ none) (result : EngineResult) :
    tree.Spares kept (keep library tree path result).state := by
  unfold keep
  split
  · have made := FileTree.spares_ensureDirectories isThere path.parent
    exact made.andThen (FileTree.spares_write (apart.place_ne leads) _)
  · split
    · exact .refl
    · exact PictureFile.spares_save reliable apart leads isThere _

/-- An output that is not kept tells why. -/
theorem Run.isTold_of_keep {result : EngineResult} {failure : Failure}
    (failed : (keep library tree path result).error = some failure) : failure.IsTold := by
  have ofFile {error : Option FileError} (isFailure : error.map FileError.failure = some failure) :
      failure.IsTold := by
    rcases Option.map_eq_some_iff.mp isFailure with ⟨error, -, rfl⟩
    exact ⟨error.message, rfl⟩
  unfold keep at failed
  split at failed
  · exact ofFile failed
  · split at failed
    · obtain rfl := Option.some.inj failed
      exact ⟨_, rfl⟩
    · unfold PictureFile.save Progress.andThen at failed
      split at failed
      · exact reliable.tells _ _ _ _ _ failed
      · exact ofFile failed

end Outputs

end Retouch
