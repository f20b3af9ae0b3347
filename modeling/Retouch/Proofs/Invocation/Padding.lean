import Retouch.Invocation
import Retouch.Proofs.Command.Padding
import Retouch.Proofs.Command.Reading
import Retouch.Proofs.Command.ToolName

/-!
# Blank characters around a command

An invocation is the same with blank characters around its command, but for a tool name at the
beginning of the command. The name is looked for where the text begins, and the blank characters in
front of it go only at the end: so a name behind blank characters stays and is an argument. And a
name that is all of the command is one only with a blank character behind it. Both ways the
arguments differ, since a name is made of characters that no reader loses.
-/

namespace Retouch

namespace Literal

/-- Texts with the same arguments have the same characters without a meaning. -/
theorem filter_isSolid_of_split_eq {text other : Text} (same : split text = split other) :
    text.filter isSolid = other.filter isSolid := by
  have kept (text : Text) : (split text).flatten.filter isSolid = text.filter isSolid :=
    filter_flatten_splitFrom isQuoted_start text
  rw [← kept, same, kept]

end Literal

namespace Invocation

open Cleanup (HasToolName IsToolName allToolNames finish removeFences removeToolName)

/-- The arguments of a cleaned command. -/
def argumentsOf (cleaned : Text) : List Text :=
  Literal.split (if cleaned.isEmpty then fallback else cleaned)

theorem userStage_eq (command : Text) :
    userStage command =
      argumentsOf (finish (removeToolName allToolNames (removeFences command))) :=
  rfl

theorem argumentsOf_append_ne {word : Text} (nonempty : word ≠ [])
    (isWord : ∀ c ∈ word, Text.isWordChar c) (tail : Text) :
    argumentsOf (word ++ tail) ≠ argumentsOf (Text.trim tail) := by
  intro same
  have shown : (word ++ tail).isEmpty = false := by simp [nonempty]
  have solid : word.filter Literal.isSolid = word :=
    List.filter_eq_self.mpr fun c member => Literal.isSolid_of_isWordChar (isWord c member)
  rw [argumentsOf, argumentsOf, shown, if_neg (by decide)] at same
  have kept := Literal.filter_isSolid_of_split_eq same
  rw [List.filter_append, solid] at kept
  split at kept
  · -- the fallback begins with a dash, which is in no word
    rcases List.exists_cons_of_ne_nil nonempty with ⟨c, word, rfl⟩
    have begins : fallback.filter Literal.isSolid = fallback := by decide
    rw [begins] at kept
    obtain rfl : c = '-' := (List.cons_eq_cons.mp kept).1
    exact absurd (isWord '-' List.mem_cons_self) (by decide +kernel)
  · have shorter := ((Text.isInfix_trim tail).sublist.filter Literal.isSolid).length_le
    have lengths := congrArg List.length kept
    have positive := List.length_pos_iff.mpr nonempty
    rw [List.length_append] at lengths
    omega

/-- Taking a tool name away changes the arguments. -/
theorem argumentsOf_removeToolName_eq_iff (text : Text) :
    argumentsOf (finish (removeToolName allToolNames text)) = argumentsOf (finish text) ↔
      ¬HasToolName allToolNames text := by
  constructor
  · rintro same ⟨name, blank, rest, rfl, isToolName, isBlank⟩
    have ⟨nonempty, isWord⟩ := isToolName.isWord
    rcases Cleanup.exists_finish_append nonempty isWord isBlank rest with ⟨tail, kept, trimmed⟩
    rw [Cleanup.removeToolName_append isToolName isBlank, Cleanup.finish_trimStart, kept,
      ← trimmed] at same
    exact argumentsOf_append_ne nonempty isWord tail same.symm
  · intro absent
    rw [Cleanup.removeToolName_eq_self_iff.mpr absent]

variable {before behind : Text}

/-- With blank characters around it, a text without code fences has the same arguments exactly if it
begins with a tool name both times or neither time. -/
theorem argumentsOf_around_iff (blankBefore : ∀ c ∈ before, Text.isBlank c)
    (blankBehind : ∀ c ∈ behind, Text.isBlank c) (text : Text) :
    argumentsOf (finish (removeToolName allToolNames (before ++ text ++ behind))) =
        argumentsOf (finish (removeToolName allToolNames text)) ↔
      (HasToolName allToolNames (before ++ text ++ behind) ↔ HasToolName allToolNames text) := by
  have around := Cleanup.finish_around blankBefore blankBehind text
  have padded := argumentsOf_removeToolName_eq_iff (before ++ text ++ behind)
  have alone := argumentsOf_removeToolName_eq_iff text
  rw [around] at padded
  by_cases has : HasToolName allToolNames (before ++ text ++ behind) <;>
    by_cases hasAlone : HasToolName allToolNames text
  · refine iff_of_true ?_ (iff_of_true has hasAlone)
    obtain ⟨rfl, -⟩ := (Cleanup.hasToolName_around_iff blankBefore blankBehind).mp has
    rcases hasAlone with ⟨name, blank, rest, rfl, isToolName, isBlank⟩
    have rest_eq : finish ([] ++ rest ++ behind) = finish rest :=
      Cleanup.finish_around (by simp) blankBehind rest
    rw [List.nil_append] at rest_eq
    rw [List.nil_append, List.append_assoc, List.cons_append,
      Cleanup.removeToolName_append isToolName isBlank,
      Cleanup.removeToolName_append isToolName isBlank, Cleanup.finish_trimStart,
      Cleanup.finish_trimStart, rest_eq]
  · rw [alone.mpr hasAlone]
    exact iff_of_false (fun same => padded.mp same has) fun both => hasAlone (both.mp has)
  · rw [padded.mpr has]
    exact iff_of_false (fun same => alone.mp same.symm hasAlone) fun both => has (both.mpr hasAlone)
  · exact iff_of_true ((padded.mpr has).trans (alone.mpr hasAlone).symm)
      (iff_of_false has hasAlone)

/-- Blank characters around a command change nothing in its invocation, unless those in front hide
the tool name with which the command begins, or those behind, so far as no code fence takes them
with it, follow a command that is a tool name and nothing else. Code fences do not count here. -/
theorem build_around_iff (blankBefore : ∀ c ∈ before, Text.isBlank c)
    (blankBehind : ∀ c ∈ behind, Text.isBlank c)
    (command : Text) (width height : Int) (isExport : Bool) :
    build (before ++ command ++ behind) width height isExport =
      build command width height isExport ↔
      (before ≠ [] → ¬HasToolName allToolNames (removeFences command)) ∧
        (before = [] → IsToolName allToolNames (removeFences command) →
          removeFences (command ++ behind) = removeFences command) := by
  have noFence : Cleanup.backtick ∉ before := fun member =>
    Cleanup.ne_backtick_of_isBlank (blankBefore _ member) rfl
  rcases Cleanup.exists_removeFences_append blankBehind command with ⟨left, isSuffix, fences⟩
  have blankLeft : ∀ c ∈ left, Text.isBlank c := fun c member =>
    blankBehind c (isSuffix.subset member)
  have padded : removeFences (before ++ command ++ behind) =
      before ++ removeFences command ++ left := by
    rw [List.append_assoc, Cleanup.removeFences_append_left noFence, fences, List.append_assoc]
  rw [build, build, List.append_cancel_right_eq, List.append_cancel_left_eq, userStage_eq,
    userStage_eq, padded, argumentsOf_around_iff blankBefore blankLeft,
    Cleanup.hasToolName_around_iff blankBefore blankLeft, fences,
    List.append_right_eq_self]
  have notBoth (isToolName : IsToolName allToolNames (removeFences command)) :=
    isToolName.not_hasToolName
  by_cases none : before = []
  · simp only [none]
    tauto
  · simp [none]

/-- Around a command without a tool name blank characters change nothing, in front of one with a
tool name they do. -/
theorem build_around_blur :
    ((∀ c ∈ [' ', '\n'], Text.isBlank c) ∧ (∀ c ∈ ['\t'], Text.isBlank c) ∧
      build ([' ', '\n'] ++ ("-blur 3" : Text) ++ ['\t']) 64 48 false =
        build "-blur 3" 64 48 false) ∧
      build ([' ', '\n'] ++ ("convert -blur 3" : Text) ++ ['\t']) 64 48 false ≠
        build "convert -blur 3" 64 48 false := by
  have before : ∀ c ∈ [' ', '\n'], Text.isBlank c := by decide
  have behind : ∀ c ∈ ['\t'], Text.isBlank c := by decide
  refine
    ⟨⟨before, behind, (build_around_iff before behind "-blur 3" 64 48 false).mpr ?_⟩, ?_⟩
  · have same : removeToolName allToolNames (removeFences "-blur 3") = removeFences "-blur 3" := by
      decide +kernel
    exact ⟨fun _ => Cleanup.removeToolName_eq_self_iff.mp same,
      fun none => absurd none (by decide)⟩
  · rw [ne_eq, build_around_iff before behind "convert -blur 3" 64 48 false]
    rintro ⟨hidden, -⟩
    have other : removeToolName allToolNames (removeFences "convert -blur 3") ≠
        removeFences "convert -blur 3" := by decide +kernel
    exact other (Cleanup.removeToolName_eq_self_iff.mpr (hidden (by decide)))

/-- A blank character in front of a tool name makes it an argument, and one behind a tool name that
is all of the command takes it away. -/
theorem build_around_toolName :
    build " convert -negate" 64 48 false ≠ build "convert -negate" 64 48 false ∧
      build "convert " 64 48 true ≠ build "convert" 64 48 true := by
  decide +kernel

end Invocation

end Retouch
