import Retouch.Proofs.Environment.Written
import Retouch.Proofs.Files.Appending
import Retouch.Proofs.Record
import Retouch.Proofs.Text.Utf8

/-!
# Loading a file of variables

Loading sets the variables of a file one after the other. If the file overrides, the last value of a
variable counts, and otherwise the first one, unless the variable was set before. Either way the
values that are found afterwards are those that loading the file again would set, so a second time
changes nothing.
-/

namespace Retouch

namespace Dotenv

variable {environment : Environment} {pairs : List (Text × Text)}

/-- The environment after one more variable of a file. -/
def assign (overrides : Bool) (environment : Environment) (pair : Text × Text) : Environment :=
  if !overrides && (Record.get? pair.1 environment).isSome then environment
  else Record.set pair.1 pair.2 environment

/-- Without null characters, all variables are set in order. -/
theorem apply_eq_foldl (overrides : Bool)
    (noNull : ∀ pair ∈ pairs, hasNull pair.1 = false ∧ hasNull pair.2 = false)
    (environment : Environment) :
    apply overrides environment pairs = (pairs.foldl (assign overrides) environment, true) := by
  induction pairs generalizing environment with
  | nil => rfl
  | cons pair pairs ih =>
      rcases List.forall_mem_cons.mp noNull with ⟨⟨noNullName, noNullValue⟩, later⟩
      rw [List.foldl_cons, apply, assign]
      split
      · exact ih later environment
      · rw [noNullName, noNullValue]
        exact ih later _

theorem foldl_assign_true (environment : Environment) (pairs : List (Text × Text)) :
    pairs.foldl (assign true) environment = Record.setAll environment pairs := rfl

/-- A file that does not override sets the variables that are missing, each to its first value. -/
theorem get?_foldl_assign_false (name : Text) (environment : Environment)
    (pairs : List (Text × Text)) :
    Record.get? name (pairs.foldl (assign false) environment) =
      (Record.get? name environment).or (Record.get? name pairs) := by
  induction pairs generalizing environment with
  | nil => simp
  | cons pair pairs ih =>
      rw [List.foldl_cons, ih, Record.get?]
      by_cases present : (Record.get? pair.1 environment).isSome
      · have kept : assign false environment pair = environment := if_pos (by simpa using present)
        rw [kept]
        split
        · next same =>
            rw [same] at present
            rw [Option.or_of_isSome present, Option.or_of_isSome present]
        · rfl
      · have isSet : assign false environment pair = Record.set pair.1 pair.2 environment :=
          if_neg (by simpa using present)
        rw [isSet, Record.get?_set]
        split
        · next same =>
            rw [same] at present
            rw [Option.not_isSome_iff_eq_none.mp present]
            rfl
        · rfl

theorem foldl_assign_false_eq_self
    (present : ∀ pair ∈ pairs, (Record.get? pair.1 environment).isSome) :
    pairs.foldl (assign false) environment = environment := by
  induction pairs with
  | nil => rfl
  | cons pair pairs ih =>
      rcases List.forall_mem_cons.mp present with ⟨here, later⟩
      have kept : assign false environment pair = environment := if_pos (by simpa using here)
      rw [List.foldl_cons, kept, ih later]

/-- The values that a file leaves are those that it would set again. -/
theorem foldl_assign_foldl_assign (overrides : Bool) (environment : Environment)
    (pairs : List (Text × Text)) :
    pairs.foldl (assign overrides) (pairs.foldl (assign overrides) environment) =
      pairs.foldl (assign overrides) environment := by
  cases overrides with
  | false =>
      apply foldl_assign_false_eq_self
      intro pair member
      have isName : pair.1 ∈ pairs.map Prod.fst := List.mem_map_of_mem member
      rw [get?_foldl_assign_false, Option.isSome_or, Record.isSome_get?_iff.mpr isName,
        Bool.or_true]
  | true =>
      apply Record.setAll_eq_self
      intro name isName
      rw [foldl_assign_true, Record.get?_setAll,
        Option.or_of_isSome (Record.isSome_get?_reverse.mpr isName)]

namespace File

def first? (file : File) (name : Text) : Option Text :=
  (file.pairs.find? fun pair => pair.1 = name).map Prod.snd

def last? (file : File) (name : Text) : Option Text :=
  (file.pairs.reverse.find? fun pair => pair.1 = name).map Prod.snd

theorem noNull (file : File) : ∀ pair ∈ file.pairs, hasNull pair.1 = false ∧
    hasNull pair.2 = false := by
  have ofLine {line : Line} {pair : Text × Text} (isPair : line.pair? = some pair) :
      hasNull pair.1 = false ∧ hasNull pair.2 = false := by
    cases line with
    | blank => cases isPair
    | comment => cases isPair
    | assignment setting =>
        cases isPair
        exact ⟨setting.name_noNull, setting.value_noNull⟩
  intro pair member
  rcases List.mem_append.mp member with isInside | isLast
  · rcases List.mem_filterMap.mp isInside with ⟨_, -, isPair⟩
    exact ofLine isPair
  · exact ofLine (Option.mem_toList.mp isLast)

end File

theorem textOf?_of_isFile {tree : FileTree} {path : Path} {text : Text}
    (isFile : tree.node? path = .ok (some (.file (Utf8.encode text)))) :
    textOf? tree path = .ok (some text) := by
  have isThere : tree.has path = .ok true := by
    rw [FileTree.has, isFile]
    rfl
  simp only [textOf?, isThere, FileTree.read_of_isFile isFile, Utf8.decode_encode, Except.mapError,
    bind, Except.bind, pure, Except.pure, if_true]

/-- Loading a file of variables succeeds. A file that does not override leaves all variables that
were set and gives each other one the value on its first line; a file that overrides gives each of
its variables the value on its last line. No other variable changes, and loading the file again
changes nothing. -/
theorem load_file (file : File) {tree : FileTree} {path : Path}
    (isFile : tree.node? path = .ok (some (.file (Utf8.encode file.text)))) (overrides : Bool)
    (environment : Environment) :
    ∃ after, load tree path overrides environment = (after, .ok true) ∧
      (∀ name, Record.get? name after =
        if overrides then (file.last? name).or (Record.get? name environment)
        else (Record.get? name environment).or (file.first? name)) ∧
      load tree path overrides after = (after, .ok true) := by
  have loads (environment : Environment) :
      load tree path overrides environment =
          (file.pairs.foldl (assign overrides) environment, .ok true) := by
    rw [load, textOf?_of_isFile isFile]
    simp only [file.assignments_text, apply_eq_foldl overrides file.noNull]
  refine ⟨_, loads environment, ?_, ?_⟩
  · intro name
    cases overrides with
    | false =>
        have first : file.first? name = Record.get? name file.pairs :=
          (Record.get?_eq_find? name file.pairs).symm
        rw [first]
        exact get?_foldl_assign_false name environment file.pairs
    | true =>
        have last : file.last? name = Record.get? name file.pairs.reverse :=
          (Record.get?_eq_find? name file.pairs.reverse).symm
        rw [last]
        exact Record.get?_setAll name environment file.pairs
  · rw [loads, foldl_assign_foldl_assign]

/-- A file that sets a variable twice, with a comment, blank lines and all kinds of line breaks
between. -/
def repeatedFile : File where
  lines := [
    (.comment [' '] " MODE='none'" (by decide) (by decide), .single '\n' (by decide)),
    (.assignment { isExported := true, name := "MODE", value := " a='b' # \x22c\x22 " }, .pair),
    (.blank ['\t'] (by decide) (by decide), .single '\r' (by decide)),
    (.assignment { isExported := false, name := "HOME", value := "" }, .single '\r' (by decide)),
    (.blank [] (by decide) (by decide), .single '\n' (by decide))]
  last := .assignment { isExported := false, name := "MODE", value := "second" }

/-- A directory with this file in it. -/
def repeatedTree : FileTree where
  nodes := [([fileName], .file (Utf8.encode repeatedFile.text))]

theorem load_file_repeated :
    repeatedTree.node? (Path.ofText fileName) =
      .ok (some (.file (Utf8.encode repeatedFile.text))) ∧
      (∃ after, load repeatedTree (Path.ofText fileName) false [("HOME", "/root")] =
          (after, .ok true) ∧
        Record.get? ("MODE" : Text) after = some (" a='b' # \x22c\x22 " : Text) ∧
        Record.get? ("HOME" : Text) after = some ("/root" : Text)) ∧
      ∃ after, load repeatedTree (Path.ofText fileName) true [("HOME", "/root")] =
        (after, .ok true) ∧ Record.get? ("MODE" : Text) after = some ("second" : Text) ∧
        Record.get? ("HOME" : Text) after = some ("" : Text) := by
  have isFile : repeatedTree.node? (Path.ofText fileName) =
      .ok (some (.file (Utf8.encode repeatedFile.text))) := rfl
  refine ⟨isFile, ?_, ?_⟩
  · rcases load_file repeatedFile isFile false [("HOME", "/root")] with
      ⟨after, loads, values, -⟩
    refine ⟨after, loads, ?_, ?_⟩
    · rw [values]
      rfl
    · rw [values]
      rfl
  · rcases load_file repeatedFile isFile true [("HOME", "/root")] with
      ⟨after, loads, values, -⟩
    refine ⟨after, loads, ?_, ?_⟩
    · rw [values]
      rfl
    · rw [values]
      rfl

end Dotenv

end Retouch
