import Retouch.Files.Tree

/-!
# Appending to a file

A path is followed through directories only, so a node that is put where no directory was changes no
path that leads somewhere. Once the directories on the way to a file are made they stay, and bytes
that are put at the end of the file are found behind those that were there.
-/

namespace Retouch.FileTree

variable {tree : FileTree} {path : Path} {place start target : Place} {node : FileNode}
    {content bytes : Bytes}

theorem ne_nil_of_not_directory (notDirectory : tree.nodeAt? place ≠ some .directory) :
    place ≠ [] := by
  rintro rfl
  exact notDirectory rfl

theorem nodeAt?_put_self (below : place ≠ []) :
    (tree.put place node).nodeAt? place = some node := by
  rw [nodeAt?, if_neg (by simpa using below), put, Record.get?_set_self]

theorem nodeAt?_put_of_ne {other : Place} (different : other ≠ place) :
    (tree.put place node).nodeAt? other = tree.nodeAt? other := by
  unfold nodeAt? put
  rw [Record.get?_set_of_ne different]

/-- Names lead where they led if a node is put where no directory was. -/
theorem follow_put (notDirectory : tree.nodeAt? place ≠ some .directory) {names : List Text}
    (follows : tree.follow start names = .ok target) :
    (tree.put place node).follow start names = .ok target := by
  induction names generalizing start with
  | nil => exact follows
  | cons name names ih =>
      unfold follow at follows ⊢
      split at follows
      · simp at follows
      · simp at follows
      · next isDirectory =>
          -- All steps start from directories, and none was where the node is put.
          have different : start ≠ place := by
            rintro rfl
            exact notDirectory isDirectory
          rw [nodeAt?_put_of_ne different, isDirectory]
          split at follows
          · simp at follows
          · next short =>
              simp only [if_neg short]
              exact ih follows

theorem place_put (notDirectory : tree.nodeAt? place ≠ some .directory)
    (leads : tree.place path = .ok target) :
    (tree.put place node).place path = .ok target := by
  unfold FileTree.place at leads ⊢
  split at leads
  · simp at leads
  split at leads
  · simp at leads
  next noNull short =>
    rw [if_neg noNull, if_neg short]
    exact follow_put notDirectory leads

/-! ## Directories -/

theorem node?_eq_some_iff : tree.node? path = .ok (some node) ↔
    ∃ place, tree.place path = .ok place ∧ tree.nodeAt? place = some node := by
  unfold node?
  split
  · next place leads => simp [leads]
  · next tooLong => simp [tooLong]
  · next fault _ lost => simp [lost]

theorem hasDirectory_iff : tree.hasDirectory path = .ok true ↔
    tree.node? path = .ok (some .directory) := by
  unfold hasDirectory
  cases tree.node? path <;> simp [Except.map]

theorem hasDirectory_put (notDirectory : tree.nodeAt? place ≠ some .directory)
    (isThere : tree.hasDirectory path = .ok true) :
    (tree.put place node).hasDirectory path = .ok true := by
  rcases node?_eq_some_iff.mp (hasDirectory_iff.mp isThere) with ⟨other, leads, isDirectory⟩
  have different : other ≠ place := by
    rintro rfl
    exact notDirectory isDirectory
  refine hasDirectory_iff.mpr (node?_eq_some_iff.mpr ⟨other, place_put notDirectory leads, ?_⟩)
  rw [nodeAt?_put_of_ne different, isDirectory]

theorem ensureDirectory_of_hasDirectory (isThere : tree.hasDirectory path = .ok true) :
    tree.ensureDirectory path = { state := tree } := by
  rw [ensureDirectory, isThere]

theorem ensureDirectories_of_hasDirectory (isThere : tree.hasDirectory path = .ok true) :
    tree.ensureDirectories path = { state := tree } := by
  rcases node?_eq_some_iff.mp (hasDirectory_iff.mp isThere) with ⟨other, leads, isDirectory⟩
  have taken : tree.makeDirectory path = tree.failing .alreadyExists path := by
    unfold makeDirectory
    simp only [leads, isDirectory]
  unfold ensureDirectories
  cases path.names.length with
  | zero => exact ensureDirectory_of_hasDirectory isThere
  | succ count =>
      rw [ensureDirectoriesUpTo, taken]
      exact ensureDirectory_of_hasDirectory isThere

theorem hasDirectory_ensureDirectory (done : (tree.ensureDirectory path).error = none) :
    (tree.ensureDirectory path).state.hasDirectory path = .ok true := by
  unfold ensureDirectory at done ⊢
  split at done
  · assumption
  · next missing =>
      unfold makeDirectory at done ⊢
      split at done
      · simp [failing] at done
      · next place leads =>
          split at done
          · simp [failing] at done
          · next isMissing =>
              have notDirectory : tree.nodeAt? place ≠ some .directory := by simp [isMissing]
              refine hasDirectory_iff.mpr
                (node?_eq_some_iff.mpr ⟨place, place_put notDirectory leads, ?_⟩)
              exact nodeAt?_put_self (ne_nil_of_not_directory notDirectory)

theorem hasDirectory_ensureDirectories (done : (tree.ensureDirectories path).error = none) :
    (tree.ensureDirectories path).state.hasDirectory path = .ok true := by
  revert done
  unfold ensureDirectories
  cases path.names.length with
  | zero => exact hasDirectory_ensureDirectory
  | succ count =>
      unfold ensureDirectoriesUpTo
      split
      · unfold Progress.andThen
        split
        · exact hasDirectory_ensureDirectory
        · next failed =>
            intro done
            simp [failed] at done
      · exact hasDirectory_ensureDirectory

/-! ## Files -/

theorem read_of_isFile (isFile : tree.node? path = .ok (some (.file content))) :
    tree.read path = .ok content := by
  rcases node?_eq_some_iff.mp isFile with ⟨place, leads, isThere⟩
  unfold FileTree.read
  simp only [leads, isThere]

/-- Whether a path leads to a file with the given bytes in a directory that is there. -/
structure IsReady (tree : FileTree) (path : Path) (content : Bytes) : Prop where
  parent : tree.hasDirectory path.parent = .ok true
  isFile : tree.node? path = .ok (some (.file content))

theorem isReady_put (parent : tree.hasDirectory path.parent = .ok true)
    (leads : tree.place path = .ok place)
    (notDirectory : tree.nodeAt? place ≠ some .directory) :
    (tree.put place (.file content)).IsReady path content where
  parent := hasDirectory_put notDirectory parent
  isFile := node?_eq_some_iff.mpr
    ⟨place, place_put notDirectory leads,
      nodeAt?_put_self (ne_nil_of_not_directory notDirectory)⟩

/-- Bytes are put behind those of a file. -/
theorem IsReady.append (ready : tree.IsReady path content) (bytes : Bytes) :
    (tree.append path bytes).error = none ∧
      (tree.append path bytes).state.IsReady path (content ++ bytes) := by
  rcases node?_eq_some_iff.mp ready.isFile with ⟨place, leads, isFile⟩
  have appended : tree.append path bytes =
      { state := tree.put place (.file (content ++ bytes)) } := by
    unfold FileTree.append modify
    simp only [leads, isFile]
  rw [appended]
  exact ⟨rfl, isReady_put ready.parent leads (by simp [isFile])⟩

theorem IsReady.unique {other : Bytes} (first : tree.IsReady path content)
    (second : tree.IsReady path other) :
    content = other := by
  have same := first.isFile.symm.trans second.isFile
  simpa using same

/-- Where bytes could be put at the end of a file, it is there with these bytes at its end. -/
theorem exists_isReady_append (parent : tree.hasDirectory path.parent = .ok true)
    (done : (tree.append path bytes).error = none) :
    ∃ content, (tree.append path bytes).state.IsReady path content := by
  unfold FileTree.append modify at done ⊢
  split at done
  · simp [failing] at done
  · next place leads =>
      split at done
      · simp [failing] at done
      · next isFile => exact ⟨_, isReady_put parent leads (by simp [isFile])⟩
      · next isMissing => exact ⟨_, isReady_put parent leads (by simp [isMissing])⟩

/-- Bytes that cannot be put anywhere change nothing. -/
theorem state_append_of_error {error : FileError}
    (failed : (tree.append path bytes).error = some error) :
    (tree.append path bytes).state = tree := by
  unfold FileTree.append modify at failed ⊢
  split
  · rfl
  · next place leads =>
      rw [leads] at failed
      dsimp only at failed
      split
      · rfl
      · next content isFile => simp [isFile] at failed
      · next isMissing => simp [isMissing] at failed

/-- Whether a path leads to nothing or to an empty file. -/
def HoldsNothing (tree : FileTree) (path : Path) : Prop :=
  tree.node? path = .ok none ∨ tree.node? path = .ok (some (.file []))

/-- Where nothing was, bytes that are put there are all there is. -/
theorem isReady_append (parent : tree.hasDirectory path.parent = .ok true)
    (holdsNothing : tree.HoldsNothing path)
    (done : (tree.append path bytes).error = none) :
    (tree.append path bytes).state.IsReady path bytes := by
  rcases holdsNothing with isMissing | isEmpty
  · unfold FileTree.append modify at done ⊢
    split at done
    · simp [failing] at done
    · next place leads =>
        have noNode : tree.nodeAt? place = none := by
          simpa [node?, leads] using isMissing
        simp only [noNode, List.nil_append]
        exact isReady_put parent leads (by simp [noNode])
  · exact (IsReady.append ⟨parent, isEmpty⟩ bytes).2

end Retouch.FileTree
