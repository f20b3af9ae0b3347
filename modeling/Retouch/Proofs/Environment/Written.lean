import Retouch.Environment.Dotenv
import Retouch.Proofs.Text.Lines
import Retouch.Proofs.Text.Split
import Retouch.Proofs.Text.Trim

/-!
# Files of variables as they are written

A file of variables is written line by line: variables with their values between single quotes, with
or without the word for exporting, and between them comments and blank lines. Reading such a file
gives the variables with their values, in order. A value may have anything in it that is on one
line: blanks, quotes, equals signs and number signs are kept as they are.
-/

namespace Retouch

namespace Dotenv

/-- A variable with a value, as a file sets it. -/
structure Setting where
  /-- Whether the word for exporting comes first. -/
  isExported : Bool
  name : Text
  value : Text
  name_ne_nil : name ≠ [] := by decide
  name_start : ∀ c ∈ name.head?, Text.isBlank c = false ∧ c ≠ '#' := by decide
  name_stop : ∀ c ∈ name.getLast?, Text.isBlank c = false := by decide
  name_noExport : Text.afterStart? exportWord name = none := by decide
  name_noEquals : '=' ∉ name := by decide
  name_isInline : Text.IsInline name := by decide
  name_noNull : hasNull name = false := by decide
  value_isInline : Text.IsInline value := by decide
  value_noNull : hasNull value = false := by decide

/-- A line of a file of variables. -/
inductive Line where
  /-- A line of blank characters, or of none. -/
  | blank (text : Text) (areBlank : ∀ c ∈ text, Text.isBlank c) (isInline : Text.IsInline text)
  /-- A comment behind a margin. -/
  | comment (margin text : Text) (areBlank : ∀ c ∈ margin, Text.isBlank c)
      (isInline : Text.IsInline (margin ++ text))
  | assignment (setting : Setting)

/-- A value between its quotes. -/
def quotedValue (value : Text) : Text :=
  '\x27' :: value ++ ['\x27']

/-- A setting without the word for exporting. -/
def Setting.statement (setting : Setting) : Text :=
  setting.name ++ '=' :: quotedValue setting.value

def Setting.text (setting : Setting) : Text :=
  (if setting.isExported then exportWord else []) ++ setting.statement

def Line.text : Line → Text
  | .blank text _ _ => text
  | .comment margin text _ _ => margin ++ '#' :: text
  | .assignment setting => setting.text

/-- What a line sets. -/
def Line.pair? : Line → Option (Text × Text)
  | .assignment setting => some (setting.name, setting.value)
  | _ => none

/-- A file of variables: lines with a break behind each, and a last line without one. -/
structure File where
  /-- The lines that are ended. -/
  lines : List (Line × Text.LineBreak)
  /-- The last line. -/
  last : Line

def File.text (file : File) : Text :=
  file.lines.flatMap (fun (line, lineBreak) => line.text ++ lineBreak.text) ++ file.last.text

/-- The variables and values that a file sets, in order. -/
def File.pairs (file : File) : List (Text × Text) :=
  file.lines.filterMap (fun (line, _) => line.pair?) ++ file.last.pair?.toList

/-! ## One line -/

theorem getLast?_quotedValue (value : Text) : (quotedValue value).getLast? = some '\x27' := by
  rw [quotedValue]
  exact List.getLast?_concat

theorem withoutQuotes_quotedValue (value : Text) : withoutQuotes (quotedValue value) = value := by
  have isQuoted : ('\x27' = '\x22' ∨ '\x27' = '\x27') ∧
      (quotedValue value).getLast? = some '\x27' :=
    ⟨.inr rfl, getLast?_quotedValue value⟩
  calc withoutQuotes (quotedValue value) = (value ++ ['\x27']).dropLast := if_pos isQuoted
    _ = value := List.dropLast_concat

theorem trim_quotedValue (value : Text) : Text.trim (quotedValue value) = quotedValue value := by
  apply Text.trim_eq_self_of_ends
  · intro c member
    obtain rfl : '\x27' = c := by simpa [quotedValue] using member
    decide
  · intro c member
    obtain rfl : '\x27' = c := by simpa [getLast?_quotedValue] using member
    decide

/-- What is read from a line that is no comment: what stands before the first equals sign, and what
stands behind it without its quotes. -/
theorem assignment?_eq_some {text name value : Text}
    (noComment : (Text.trim text).head? ≠ some '#')
    (isStatement : (Text.afterStart? exportWord (Text.trim text)).elim (Text.trim text) Text.trim =
      name ++ '=' :: value)
    (noEquals : '=' ∉ name) (hasName : Text.trim name ≠ []) :
    assignment? text = some (Text.trim name, withoutQuotes (Text.trim value)) := by
  have behind : Text.after? '=' (name ++ '=' :: value) = some value := Text.after?_append noEquals _
  have before : Text.before '=' (name ++ '=' :: value) = name := Text.before_append noEquals _
  have hasName' : (Text.trim name).isEmpty = false := by simpa using hasName
  unfold assignment?
  generalize Text.trim text = content at noComment isStatement ⊢
  cases found : Text.afterStart? exportWord content with
  | none =>
      rw [found, Option.elim_none] at isStatement
      subst isStatement
      simp only [if_neg noComment, found, behind, before, hasName', Bool.false_eq_true, if_false]
  | some rest =>
      rw [found, Option.elim_some] at isStatement
      simp only [if_neg noComment, found, isStatement, behind, before, hasName',
        Bool.false_eq_true, if_false]

namespace Setting

variable (setting : Setting)

theorem exists_statement :
    ∃ c rest, setting.statement = c :: rest ∧ Text.isBlank c = false ∧ c ≠ '#' := by
  rcases List.exists_cons_of_ne_nil setting.name_ne_nil with ⟨c, rest, parts⟩
  have isHead : c ∈ setting.name.head? := by
    rw [parts]
    rfl
  refine ⟨c, rest ++ '=' :: quotedValue setting.value, ?_, setting.name_start c isHead⟩
  rw [statement, parts]
  rfl

/-- With or without the word for exporting, a setting does not begin with a blank character, nor as
a comment. -/
theorem exists_text :
    ∃ c rest, setting.text = c :: rest ∧ Text.isBlank c = false ∧ c ≠ '#' := by
  cases exported : setting.isExported with
  | true =>
      refine ⟨'e', exportWord.tail ++ setting.statement, ?_, by decide, by decide⟩
      rw [text, if_pos exported]
      rfl
  | false =>
      rcases setting.exists_statement with ⟨c, rest, parts, start⟩
      refine ⟨c, rest, ?_, start⟩
      rw [text, exported]
      exact parts

theorem trim_name : Text.trim setting.name = setting.name :=
  Text.trim_eq_self_of_ends (fun c member => (setting.name_start c member).1) setting.name_stop

theorem getLast?_statement : setting.statement.getLast? = some '\x27' := by
  rw [statement, List.getLast?_append, List.getLast?_cons, getLast?_quotedValue]
  rfl

theorem trim_statement : Text.trim setting.statement = setting.statement := by
  apply Text.trim_eq_self_of_ends
  · intro c member
    rcases setting.exists_statement with ⟨d, rest, parts, notBlank, -⟩
    obtain rfl : d = c := by simpa [parts] using member
    exact notBlank
  · intro c member
    obtain rfl : '\x27' = c := by simpa [getLast?_statement] using member
    decide

theorem trim_text : Text.trim setting.text = setting.text := by
  apply Text.trim_eq_self_of_ends
  · intro c member
    rcases setting.exists_text with ⟨d, rest, parts, notBlank, -⟩
    obtain rfl : d = c := by simpa [parts] using member
    exact notBlank
  · intro c member
    obtain rfl : '\x27' = c := by
      simpa [text, List.getLast?_append, getLast?_statement] using member
    decide

theorem head?_text_ne : setting.text.head? ≠ some '#' := by
  rcases setting.exists_text with ⟨c, rest, parts, -, noComment⟩
  simpa [parts] using noComment

theorem text_of_exported (isExported : setting.isExported) :
    Text.afterStart? exportWord setting.text = some setting.statement := by
  rw [text, if_pos isExported]
  exact Text.afterStart?_append _ _

theorem text_of_not_exported (notExported : setting.isExported = false) :
    setting.text = setting.statement ∧ Text.afterStart? exportWord setting.text = none := by
  have alone : setting.text = setting.statement := by
    rw [text, notExported]
    rfl
  refine ⟨alone, ?_⟩
  rw [alone]
  apply Text.afterStart?_append_eq_none setting.name_noExport
  intro c isHead
  obtain rfl : '=' = c := by simpa using isHead
  decide

theorem assignment?_text : assignment? setting.text = some (setting.name, setting.value) := by
  have noComment : (Text.trim setting.text).head? ≠ some '#' := by
    rw [trim_text]
    exact setting.head?_text_ne
  have isStatement : (Text.afterStart? exportWord (Text.trim setting.text)).elim
      (Text.trim setting.text) Text.trim =
      setting.name ++ '=' :: quotedValue setting.value := by
    rw [trim_text]
    cases exported : setting.isExported with
    | true =>
        rw [setting.text_of_exported exported]
        exact setting.trim_statement
    | false =>
        rcases setting.text_of_not_exported exported with ⟨alone, absent⟩
        rw [absent, alone]
        rfl
  have hasName : Text.trim setting.name ≠ [] := by
    rw [trim_name]
    exact setting.name_ne_nil
  rw [assignment?_eq_some noComment isStatement setting.name_noEquals hasName, trim_name,
    trim_quotedValue, withoutQuotes_quotedValue]

theorem isInline_text : Text.IsInline setting.text := by
  have isExport : Text.IsInline (if setting.isExported then exportWord else []) := by
    cases setting.isExported <;> decide
  have isQuoted : Text.IsInline (['=', '\x27'] ++ setting.value ++ ['\x27']) :=
    (Text.IsInline.append (by decide) setting.value_isInline).append (by decide)
  exact isExport.append (setting.name_isInline.append isQuoted)

end Setting

namespace Line

theorem isInline_text (line : Line) : Text.IsInline line.text := by
  cases line with
  | blank text areBlank isInline => exact isInline
  | comment margin text areBlank isInline =>
      intro c member
      rcases List.mem_append.mp member with inMargin | inComment
      · exact isInline c (List.mem_append_left _ inMargin)
      · rcases List.mem_cons.mp inComment with rfl | inText
        · decide
        · exact isInline c (List.mem_append_right _ inText)
  | assignment setting => exact setting.isInline_text

theorem assignment?_text (line : Line) : assignment? line.text = line.pair? := by
  cases line with
  | blank text areBlank isInline =>
      rw [Line.text, assignment?, Text.trim_eq_nil areBlank]
      rfl
  | comment margin text areBlank isInline =>
      have isComment : (Text.trim (margin ++ '#' :: text)).head? = some '#' := by
        have around := Text.trim_around areBlank (List.forall_mem_nil _) ('#' :: text)
        rw [List.append_nil] at around
        rw [around, Text.trim_eq_trimEnd (by simp; decide)]
        have kept : Text.trimEnd (['#'] ++ text) = ['#'] ++ Text.trimEnd text :=
          Text.trimEnd_append_eq (by decide) _
        exact congrArg List.head? kept
      rw [Line.text, assignment?]
      simp only [isComment, if_pos]
      rfl
  | assignment setting => exact setting.assignment?_text

end Line

/-! ## The whole file -/

theorem assignment?_nil : assignment? [] = none := by decide

theorem assignments_of_isInline {line : Text} (isInline : Text.IsInline line) :
    assignments line = (assignment? line).toList := by
  rw [assignments, Text.withLineFeeds_eq_self isInline.notMem_return]
  by_cases empty : line = []
  · rw [empty, assignment?_nil]
    rfl
  · rw [Text.lines_of_isInline isInline empty]
    cases found : assignment? line with
    | none => exact List.filterMap_cons_none found
    | some pair => exact List.filterMap_cons_some found

theorem assignments_of_feed (rest : Text) : assignments ('\n' :: rest) = assignments rest := by
  have fed : Text.withLineFeeds ('\n' :: rest) = '\n' :: Text.withLineFeeds rest :=
    Text.withLineFeeds_cons (by decide) rest
  have isEmpty : Text.lines ('\n' :: Text.withLineFeeds rest) =
      [] :: Text.lines (Text.withLineFeeds rest) :=
    Text.lines_append (List.forall_mem_nil _) (by decide) (by decide) _
  rw [assignments, fed, isEmpty, List.filterMap_cons_none assignment?_nil]
  rfl

/-- What stands behind a break is read by itself. -/
theorem assignments_append {line : Text} (isInline : Text.IsInline line)
    (lineBreak : Text.LineBreak) (rest : Text) :
    assignments (line ++ lineBreak.text ++ rest) =
      (assignment? line).toList ++ assignments rest := by
  rcases Text.exists_withLineFeeds lineBreak rest with ⟨c, left, isBreak, noReturn, fed, isRest⟩
  have same : assignments rest = assignments left := by
    rcases isRest with rfl | rfl
    · rfl
    · exact assignments_of_feed left
  rw [same, List.append_assoc, assignments, Text.withLineFeeds_append isInline.notMem_return, fed,
    Text.lines_append isInline isBreak noReturn]
  cases found : assignment? line with
  | none => exact List.filterMap_cons_none found
  | some pair => exact List.filterMap_cons_some found

/-- A file is read as what its lines set. -/
theorem File.assignments_text (file : File) : assignments file.text = file.pairs := by
  rcases file with ⟨lines, last⟩
  induction lines with
  | nil =>
      change assignments last.text = last.pair?.toList
      rw [assignments_of_isInline last.isInline_text, last.assignment?_text]
  | cons first lines ih =>
      rcases first with ⟨line, lineBreak⟩
      change assignments (line.text ++ lineBreak.text ++ lines.flatMap _ ++ last.text) = _
      rw [List.append_assoc, assignments_append line.isInline_text, line.assignment?_text]
      change line.pair?.toList ++ assignments (File.text ⟨lines, last⟩) = _
      rw [ih, File.pairs, File.pairs, ← List.append_assoc]
      cases pair : line.pair? <;> simp [pair]

end Dotenv

end Retouch
