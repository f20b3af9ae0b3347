import Retouch.Invocation
import Retouch.Proofs.Command.FilenameFree
import Retouch.Proofs.Command.Reading

/-!
# Names of the engine's files

An invocation names the files of the engine where its fixed stages do. A command can bring no such
name in one piece, since file names are taken away before the arguments are formed. But what is
taken away is looked for in the written command, and an argument is formed afterwards, without the
quotes and backslashes: a name with one of them in it comes through.
-/

namespace Retouch

namespace Literal

variable {text form name : Text}

theorem IsForm.split_eq (isForm : IsForm text form) (member : name ∈ split form) :
    split form = [name] := by
  rcases exists_value_of_unbroken isQuoted_start isForm.unbroken with ⟨value, split_eq, -⟩
  rw [split, split_eq, State.flush] at member ⊢
  split at member
  · simp at member
  · next some => rw [if_neg some, List.mem_singleton.mp member]

theorem isWordChar?_of_separator {neighbour : Option Char}
    (isSeparator : ∀ c ∈ neighbour, Token.isSeparator c) :
    Text.isWordChar? neighbour = false := by
  cases neighbour with
  | none => rfl
  | some c => exact isWordChar_of_isSeparator (isSeparator c rfl)

/-- In a text without file names, a form that is read as a file name does not hold it in one
piece. -/
theorem IsForm.hides (isForm : IsForm text form) (isRead : split form = [name])
    (isFilename : Cleanup.IsFilename name) (absent : ¬Cleanup.HasFilename text) :
    Hides form name := by
  refine ⟨isRead, fun inOne => absent ?_⟩
  rcases isForm.exists_marks_around isRead inOne with ⟨front, back, rfl, frontMarks, backMarks⟩
  rcases isForm.around with ⟨before, behind, rfl, last, first⟩
  have alone : Cleanup.HasFilename name := ⟨[], name, [], by simp, isFilename, rfl, rfl⟩
  have marked : Cleanup.HasFilename (front ++ name ++ back) := alone.append
    (Cleanup.isWordChar?_of_forall (fun c member => isWordChar_of_isMark (frontMarks c member))
      fun c => List.mem_of_mem_getLast?)
    (Cleanup.isWordChar?_of_forall (fun c member => isWordChar_of_isMark (backMarks c member))
      fun c => List.mem_of_mem_head?)
  exact marked.append (isWordChar?_of_separator last) (isWordChar?_of_separator first)

end Literal

namespace Invocation

/-- The names of the files that the engine reads and writes. -/
def bufferFiles : List Text := [inputFile, previewFile, exportFile]

theorem isFilename_of_mem_bufferFiles {name : Text} (member : name ∈ bufferFiles) :
    Cleanup.IsFilename name := by
  simp only [bufferFiles, List.mem_cons, List.not_mem_nil, or_false] at member
  rcases member with rfl | rfl | rfl
  · exact Cleanup.isFilename_of_mem "source" "rgba" (by decide) (by decide)
  · exact Cleanup.isFilename_of_mem "out" "rgba" (by decide) (by decide)
  · exact Cleanup.isFilename_of_mem "out" "jpg" (by decide) (by decide)

/-- An argument of a command is the name of an engine file exactly if a written form of the cleaned
command hides it. -/
theorem mem_userStage_iff {name : Text} (member : name ∈ bufferFiles) (command : Text) :
    name ∈ userStage command ↔ ∃ form ∈ Literal.forms (Cleanup.forEngine command),
      Literal.Hides form name := by
  have inForm : name ∈ Literal.split (Cleanup.forEngine command) ↔
      ∃ form ∈ Literal.forms (Cleanup.forEngine command), Literal.Hides form name := by
    rw [Literal.split_eq_flatMap_forms, List.mem_flatMap]
    refine exists_congr fun form => and_congr_right fun isForm =>
      ⟨fun isRead => ?_, fun hides => ?_⟩
    · have isForm := Literal.isForm_of_mem_forms isForm
      exact isForm.hides (isForm.split_eq isRead) (isFilename_of_mem_bufferFiles member)
        (Cleanup.not_hasFilename_forEngine command)
    · rw [hides.1]
      exact List.mem_singleton_self name
  rw [← inForm, userStage]
  split
  · next empty =>
      -- neither the fallback nor an empty command names a file
      rw [List.isEmpty_iff.mp empty]
      have absent : ∀ name ∈ bufferFiles, name ∉ Literal.split fallback ∧
          name ∉ Literal.split [] := by decide +kernel
      exact iff_of_false (absent name member).1 (absent name member).2
  · rfl

/-- The arguments of a command, in an invocation for a preview as for an export, hold the name of an
engine file exactly if a written form of the cleaned command hides it: if it is read as the name and
does not hold it in one piece. An export names the file of the preview under the same condition. -/
theorem bufferFiles_build_iff (command : Text) (width height : Int) :
    (∀ isExport, build command width height isExport =
        inputStage width height ++ userStage command ++ outputStage width height isExport) ∧
      (∀ name ∈ bufferFiles, name ∈ userStage command ↔
        ∃ form ∈ Literal.forms (Cleanup.forEngine command), Literal.Hides form name) ∧
      (previewFile ∈ build command width height true ↔
        ∃ form ∈ Literal.forms (Cleanup.forEngine command),
          Literal.Hides form previewFile) := by
  refine ⟨fun _ => rfl, fun name member => mem_userStage_iff member command, ?_⟩
  rw [← mem_userStage_iff (by decide) command]
  have notGeometry : previewFile ≠ geometry width height := by
    intro same
    have absent : 'x' ∉ previewFile := by decide
    rw [same] at absent
    simp [geometry] at absent
  have others :
      ∀ fixed ∈ [program, "-size", "-depth", "8", inputFile, "-quality", "90", exportFile],
      previewFile ≠ fixed := by
    decide
  simp_all [build, inputStage, outputStage]

/-- A name with a quote in it comes through, and a whole name between quotes is taken away. -/
theorem bufferFiles_build_quoted :
    (previewFile ∈ bufferFiles ∧ previewFile ∈ userStage "-fill o'ut.rgba' -fx 'out.jpg'") ∧
      exportFile ∈ bufferFiles ∧ exportFile ∉ userStage "-fill o'ut.rgba' -fx 'out.jpg'" := by
  rcases bufferFiles_build_iff "-fill o'ut.rgba' -fx 'out.jpg'" 64 48 with ⟨-, named, -⟩
  refine ⟨⟨by decide, (named _ (by decide)).mpr
    ⟨"o'ut.rgba'", by decide +kernel, by decide +kernel⟩⟩, by decide, ?_⟩
  rw [named _ (by decide)]
  decide +kernel

/-- A quote or a backslash in a name keeps it from being taken away, so that an export names the
file of the preview and a command names the files of the engine. -/
theorem previewFile_mem_build_export :
    previewFile ∈ build "-fill o'ut.rgba'" 64 48 true ∧
      inputFile ∈ userStage "-fill source\\.rgba" ∧
        exportFile ∈ userStage "-fill out\x22.jpg\x22" := by
  decide +kernel

end Invocation

end Retouch
