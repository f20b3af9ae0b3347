/-!
# Text

Text is a list of Unicode characters: lengths, cuts and comparisons count characters, never bytes.
This file holds the operations on it that need no table of characters: joining pieces, cutting at a
character, and dropping a known beginning.
-/

namespace Retouch

/-- A text, character by character. -/
abbrev Text := List Char

/-- A string literal may stand where a text is expected. -/
instance : Coe String Text := ⟨String.toList⟩

namespace Text

/-- The pieces one after the other, with the separator between neighbours. -/
def join (separator : Text) : List Text → Text
  | [] => []
  | [piece] => piece
  | piece :: next :: rest => piece ++ separator ++ join separator (next :: rest)

/-- The pieces one after the other, with one space between neighbours. -/
def unwords (pieces : List Text) : Text :=
  join [' '] pieces

@[simp]
theorem join_nil (separator : Text) : join separator [] = [] := rfl

@[simp]
theorem join_singleton (separator piece : Text) : join separator [piece] = piece := rfl

theorem join_cons_cons (separator piece next : Text) (rest : List Text) :
    join separator (piece :: next :: rest) =
      piece ++ separator ++ join separator (next :: rest) := rfl

/-- The pieces between the separators; there is always one more piece than separators. -/
def splitOn (separator : Char) : Text → List Text
  | [] => [[]]
  | c :: rest =>
      if c = separator then
        [] :: splitOn separator rest
      else
        match splitOn separator rest with
        | [] => [[c]]
        | piece :: pieces => (c :: piece) :: pieces

def before (separator : Char) (text : Text) : Text :=
  text.takeWhile (· != separator)

def after? (separator : Char) (text : Text) : Option Text :=
  match text.dropWhile (· != separator) with
  | [] => none
  | _ :: rest => some rest

/-- What follows a given beginning, if the text begins so. -/
def afterStart? : Text → Text → Option Text
  | [], text => some text
  | _ :: _, [] => none
  | expected :: start, c :: text => if c = expected then afterStart? start text else none

def startsWith (text start : Text) : Bool :=
  (afterStart? start text).isSome

/-- The text without the trailing characters that satisfy a test. -/
def dropEndWhile (test : Char → Bool) (text : Text) : Text :=
  (text.reverse.dropWhile test).reverse

theorem length_after?_lt {separator : Char} {text rest : Text}
    (found : after? separator text = some rest) : rest.length < text.length := by
  have shorter := (List.dropWhile_suffix (· != separator) (l := text)).length_le
  unfold after? at found
  split at found
  · simp at found
  · next dropped =>
      rw [dropped] at shorter
      simp only [Option.some.injEq] at found
      simp only [List.length_cons, found] at shorter
      omega

theorem eq_append_of_afterStart? {start text rest : Text}
    (found : afterStart? start text = some rest) :
    text = start ++ rest := by
  induction start generalizing text with
  | nil => simp_all [afterStart?]
  | cons c start ih =>
      cases text with
      | nil => simp [afterStart?] at found
      | cons d text =>
          simp only [afterStart?] at found
          split at found
          · next same => rw [same, ih found, List.cons_append]
          · simp at found

end Text

end Retouch
