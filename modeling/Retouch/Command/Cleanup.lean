import Retouch.Command.Token
import Retouch.Text.Case
import Retouch.Text.Word

/-!
# Cleaning of command text

Generated text comes with things around the command: code fences, the name of the tool,
placeholders, file names and line breaks. Each pass removes or replaces one of them, from left to
right and once. Text that goes to validation and text that goes to the engine are cleaned by two
fixed sequences of passes.
-/

namespace Retouch.Cleanup

/-- The character of which three make a code fence. -/
def backtick : Char := '\x60'

/-- What follows a fence: its language name and one line break belong to it. -/
def afterFence (text : Text) : Text :=
  match text.dropWhile Text.isAnyLetter with
  | '\n' :: rest => rest
  | rest => rest

theorem length_afterFence_le (text : Text) : (afterFence text).length ≤ text.length := by
  have shorter := (List.dropWhile_suffix Text.isAnyLetter (l := text)).length_le
  unfold afterFence
  split
  · next dropped => rw [dropped] at shorter; simp only [List.length_cons] at shorter; omega
  · exact shorter

/-- What follows a whole code fence, if the text begins with one. -/
def afterFence? (text : Text) : Option Text :=
  (Text.afterStart? [backtick, backtick, backtick] text).map afterFence

theorem length_afterFence?_lt {text rest : Text} (found : afterFence? text = some rest) :
    rest.length < text.length := by
  obtain ⟨following, marks, rfl⟩ := Option.map_eq_some_iff.mp found
  have := length_afterFence_le following
  rw [Text.eq_append_of_afterStart? marks]
  simp only [List.length_append, List.length_cons, List.length_nil]
  omega

def removeFenceMarks : Text → Text
  | [] => []
  | c :: rest =>
      match _ : afterFence? (c :: rest) with
      | some after => removeFenceMarks after
      | none => c :: removeFenceMarks rest
termination_by text => text.length
decreasing_by
  · exact length_afterFence?_lt ‹_›
  · simp only [List.length_cons]; omega

/-- The text without its code fences and without any other backtick. -/
def removeFences (text : Text) : Text :=
  (removeFenceMarks text).filter (· != backtick)

/-- The names under which the engine is called. -/
def toolNames : List Text := ["magick", "convert"]

/-- The names under which the engine is called, with the name of its web build. -/
def allToolNames : List Text := ["magick", "convert", "magica"]

/-- What follows a tool name and at least one blank, if the text begins with them. -/
def afterToolName? (names : List Text) (text : Text) : Option Text :=
  names.findSome? fun name =>
    match Text.afterWord? name text with
    | some (c :: rest) => if Text.isBlank c then some (Text.trimStart rest) else none
    | _ => none

def removeToolName (names : List Text) (text : Text) : Text :=
  (afterToolName? names text).getD text

/-- The base names of files that generated text tends to mention. -/
def fileStems : List Text := ["input", "output", "source", "out", "result"]

def fileSuffixes : List Text := ["png", "jpg", "jpeg", "gif", "webp", "tiff", "bmp", "rgba"]

/-- What follows a file suffix that ends a word, if the text begins with one. -/
def afterSuffix? (text : Text) : Option Text :=
  fileSuffixes.findSome? fun suffix =>
    (Text.afterWord? suffix text).filter fun rest => !Text.isWordChar? rest.head?

def afterFilename? (text : Text) : Option Text :=
  fileStems.findSome? fun stem =>
    match Text.afterWord? stem text with
    | some ('.' :: rest) => afterSuffix? rest
    | _ => none

theorem length_afterWord?_le {word text rest : Text}
    (found : Text.afterWord? word text = some rest) :
    rest.length ≤ text.length := by
  induction word generalizing text with
  | nil => simp_all [Text.afterWord?]
  | cons letter word ih =>
      cases text with
      | nil => simp [Text.afterWord?] at found
      | cons c text =>
          simp only [Text.afterWord?] at found
          split at found
          · have := ih found; simp only [List.length_cons]; omega
          · simp at found

theorem length_afterSuffix?_le {text rest : Text} (found : afterSuffix? text = some rest) :
    rest.length ≤ text.length := by
  obtain ⟨suffix, -, matched⟩ := List.exists_of_findSome?_eq_some found
  exact length_afterWord?_le (Option.filter_eq_some_iff.mp matched).1

theorem length_afterFilename?_lt {text rest : Text} (found : afterFilename? text = some rest) :
    rest.length < text.length := by
  obtain ⟨stem, -, matched⟩ := List.exists_of_findSome?_eq_some found
  split at matched
  · next after word =>
      have := length_afterWord?_le word
      have := length_afterSuffix?_le matched
      simp only [List.length_cons] at *
      omega
  · simp at matched

/-- What follows a file name, if one begins here; none does where a word is under way. -/
def afterFilenameUnless? (inWord : Bool) (text : Text) : Option Text :=
  if inWord then none else afterFilename? text

theorem length_afterFilenameUnless?_lt {inWord : Bool} {text rest : Text}
    (found : afterFilenameUnless? inWord text = some rest) : rest.length < text.length := by
  cases inWord with
  | true => simp [afterFilenameUnless?] at found
  | false => exact length_afterFilename?_lt found

/-- The text without its file names, given whether a word is under way before it. -/
def removeFilenamesFrom (inWord : Bool) : Text → Text
  | [] => []
  | c :: rest =>
      match _ : afterFilenameUnless? inWord (c :: rest) with
      -- a name ends with a word character, so no other one begins right behind it
      | some after => removeFilenamesFrom true after
      | none => c :: removeFilenamesFrom (Text.isWordChar c) rest
termination_by text => text.length
decreasing_by
  · exact length_afterFilenameUnless?_lt ‹_›
  · simp only [List.length_cons]; omega

def removeFilenames (text : Text) : Text :=
  removeFilenamesFrom false text

/-- What stands in the place of a placeholder. -/
def placeholderValue : Char := '1'

/-- What follows a placeholder, a non-empty stretch between angle brackets, if the text begins with
one. -/
def afterPlaceholder? : Text → Option Text
  | [] => none
  | c :: rest => if c = '<' ∧ rest.head? ≠ some '>' then Text.after? '>' rest else none

theorem length_afterPlaceholder?_lt {text rest : Text}
    (found : afterPlaceholder? text = some rest) :
    rest.length < text.length := by
  cases text with
  | nil => simp [afterPlaceholder?] at found
  | cons c text =>
      simp only [afterPlaceholder?] at found
      split at found
      · have := Text.length_after?_lt found
        simp only [List.length_cons]
        omega
      · simp at found

def fillPlaceholders : Text → Text
  | [] => []
  | c :: rest =>
      match _ : afterPlaceholder? (c :: rest) with
      | some after => placeholderValue :: fillPlaceholders after
      | none => c :: fillPlaceholders rest
termination_by text => text.length
decreasing_by
  · exact length_afterPlaceholder?_lt ‹_›
  · simp only [List.length_cons]; omega

def isReturnOrFeed (c : Char) : Bool :=
  c == '\r' || c == '\n'

/-- The text with every run of line breaks replaced by one space; the flag says whether a run is
under way. -/
def replaceBreaks (inRun : Bool) : Text → Text
  | [] => []
  | c :: rest =>
      if isReturnOrFeed c then
        if inRun then replaceBreaks true rest else ' ' :: replaceBreaks true rest
      else
        c :: replaceBreaks false rest

def joinLines (text : Text) : Text :=
  Text.trim (replaceBreaks false text)

def forValidation (text : Text) : Text :=
  joinLines (fillPlaceholders (removeToolName toolNames (Text.trimStart (removeFences text))))

def forEngine (text : Text) : Text :=
  joinLines (fillPlaceholders (removeFilenames (removeToolName allToolNames (removeFences text))))

end Retouch.Cleanup
