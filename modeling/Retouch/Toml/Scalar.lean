import Retouch.Json.Parser
import Retouch.Toml.Basic

/-!
# TOML scalars

The forms of texts, numbers and moments. Every reader takes what stands at the beginning of a text
and gives what follows it.
-/

namespace Retouch.Toml

def isSpace (c : Char) : Bool :=
  c == ' ' || c == '\t'

def skipSpace (text : Text) : Text :=
  text.dropWhile isSpace

/-- Whether a character is a control character other than a tab. -/
def isControl (c : Char) : Bool :=
  (c.toNat < 0x20 && c != '\t') || c.toNat == 0x7F

/-- Whether a character may stand in a text value, which may go over several lines. -/
def isTextChar (overLines : Bool) (c : Char) : Bool :=
  !isControl c || (overLines && c == '\n')

/-- How blanks are passed over after a backslash at the end of a line. -/
inductive Skipping where
  | nothing
  /-- The rest of the line is passed over, which has to be blank. -/
  | lineRest
  | blanks
  deriving DecidableEq

def shortEscape? (c : Char) : Option Char :=
  if c = '/' then none else Json.shortEscape? c

/-- The character with a code of eight hexadecimal digits, if it is one. -/
def charOfDigits? (digits : Text) : Option Char := do
  let code ← digits.foldlM (fun value digit => (Json.hexValue? digit).map (value * 16 + ·)) 0
  if code < 0xD800 ∨ (0xE000 ≤ code ∧ code ≤ 0x10FFFF) then some (Char.ofNat code) else none

/-- Puts a character in front of what is read after it. -/
def andThen (c : Char) (read : Except ReadError (Text × Text)) : Except ReadError (Text × Text) :=
  read.map fun (text, rest) => (c :: text, rest)

/-- The content of a text between double quotes and what follows the closing quote or quotes. -/
def readQuoted (overLines : Bool) (skipping : Skipping) : Text → Except ReadError (Text × Text)
  | [] => .error .malformed
  | c :: rest =>
      if skipping = .lineRest then
        if isSpace c then readQuoted overLines .lineRest rest
        else if c = '\n' then readQuoted overLines .blanks rest
        else .error .malformed
      else if skipping = .blanks ∧ (isSpace c ∨ c = '\n') then
        readQuoted overLines .blanks rest
      else if c = '\x22' then
        if overLines then
          match rest with
          | '\x22' :: '\x22' :: after => .ok ([], after)
          | _ => andThen c (readQuoted overLines .nothing rest)
        else
          .ok ([], rest)
      else if c = '\\' then
        match rest with
        | 'u' :: a :: b :: c :: d :: after =>
            match charOfDigits? [a, b, c, d] with
            | some char => andThen char (readQuoted overLines .nothing after)
            | none => .error .malformed
        | 'U' :: a :: b :: c :: d :: e :: f :: g :: h :: after =>
            match charOfDigits? [a, b, c, d, e, f, g, h] with
            | some char => andThen char (readQuoted overLines .nothing after)
            | none => .error .malformed
        | next :: after =>
            match shortEscape? next with
            | some char => andThen char (readQuoted overLines .nothing after)
            | none =>
                if overLines ∧ next = '\n' then readQuoted overLines .blanks after
                else if overLines ∧ isSpace next then readQuoted overLines .lineRest after
                else .error .malformed
        | [] => .error .malformed
      else if isTextChar overLines c then
        andThen c (readQuoted overLines .nothing rest)
      else
        .error .malformed

/-- The content of a literal text on one line and what follows the closing quote. -/
def readLiteral : Text → Except ReadError (Text × Text)
  | [] => .error .malformed
  | c :: rest =>
      if c = '\x27' then .ok ([], rest)
      else if isTextChar false c then andThen c (readLiteral rest)
      else .error .malformed

/-- The content of a literal text over several lines and what follows the closing quotes. -/
def readLiteralLines : Text → Except ReadError (Text × Text)
  | [] => .error .malformed
  | '\x27' :: '\x27' :: '\x27' :: rest => .ok ([], rest)
  | c :: rest =>
      if isTextChar true c then andThen c (readLiteralLines rest) else .error .malformed

/-- Adds up to two quotes that stand right behind a text over several lines. -/
def withExtraQuotes (quote : Char) (text rest : Text) : Text × Text :=
  match rest with
  | c :: d :: after =>
      if c = quote ∧ d = quote then (text ++ [quote, quote], after)
      else if c = quote then (text ++ [quote], d :: after)
      else (text, rest)
  | [c] => if c = quote then (text ++ [quote], []) else (text, rest)
  | [] => (text, [])

def afterLineBreak : Text → Text
  | '\n' :: rest => rest
  | text => text

/-- A text value between quotes of some kind, if the text begins with a quote. -/
def readText? : Text → Option (Except ReadError (Text × Text))
  | '\x22' :: '\x22' :: '\x22' :: rest =>
      some ((readQuoted true .nothing (afterLineBreak rest)).map fun (text, after) =>
        withExtraQuotes '\x22' text after)
  | '\x22' :: rest => some (readQuoted false .nothing rest)
  | '\x27' :: '\x27' :: '\x27' :: rest =>
      some ((readLiteralLines (afterLineBreak rest)).map fun (text, after) =>
        withExtraQuotes '\x27' text after)
  | '\x27' :: rest => some (readLiteral rest)
  | _ => none

def isKeyChar (c : Char) : Bool :=
  c.isAlphanum || c == '-' || c == '_'

def readKeyPart (text : Text) : Except ReadError (Text × Text) :=
  match text with
  | '\x22' :: rest => readQuoted false .nothing rest
  | '\x27' :: rest => readLiteral rest
  | _ =>
      let name := text.takeWhile isKeyChar
      if name.isEmpty then .error .malformed else .ok (name, text.dropWhile isKeyChar)

/-- A key of one or more parts with dots between them, and what follows it and its spaces. -/
def readKey : Nat → Text → Except ReadError (List Text × Text)
  | 0, _ => .error .malformed
  | budget + 1, text => do
      let (name, rest) ← readKeyPart text
      match skipSpace rest with
      | '.' :: more =>
          let (names, after) ← readKey budget (skipSpace more)
          return (name :: names, after)
      | after => return ([name], after)

/-! ## Moments -/

def twoDigits? : Text → Option (Nat × Text)
  | a :: b :: rest =>
      if Text.isAsciiDigit a ∧ Text.isAsciiDigit b then
        some (Text.digitValue a * 10 + Text.digitValue b, rest)
      else
        none
  | _ => none

def afterChar? (expected : Char) : Text → Option Text
  | c :: rest => if c = expected then some rest else none
  | [] => none

def afterFraction (text : Text) : Text :=
  match text with
  | '.' :: c :: rest => if Text.isAsciiDigit c then rest.dropWhile Text.isAsciiDigit else text
  | _ => text

def afterHourMinute? (text : Text) : Option Text := do
  let (hour, afterHour) ← twoDigits? text
  let (minute, rest) ← twoDigits? (← afterChar? ':' afterHour)
  if hour < 24 ∧ minute < 60 then some rest else none

def afterTime? (text : Text) : Option Text := do
  let (second, rest) ← twoDigits? (← afterChar? ':' (← afterHourMinute? text))
  if second < 60 then some (afterFraction rest) else none

def afterOffset (text : Text) : Text :=
  match text with
  | c :: rest =>
      if c = 'Z' ∨ c = 'z' then rest
      else if c = '+' ∨ c = '-' then (afterHourMinute? rest).getD text
      else text
  | [] => []

def daysOf (year month : Nat) : Nat :=
  if month = 2 then
    if year % 4 = 0 ∧ (year % 100 ≠ 0 ∨ year % 400 = 0) then 29 else 28
  else if month = 4 ∨ month = 6 ∨ month = 9 ∨ month = 11 then 30
  else 31

/-- The year, the month and the day of something written like a date, and what follows it. -/
def dateForm? (text : Text) : Option ((Nat × Nat × Nat) × Text) := do
  let (century, afterCentury) ← twoDigits? text
  let (inCentury, afterYear) ← twoDigits? afterCentury
  let (month, afterMonth) ← twoDigits? (← afterChar? '-' afterYear)
  let (day, rest) ← twoDigits? (← afterChar? '-' afterMonth)
  if 1 ≤ month ∧ month ≤ 12 ∧ 1 ≤ day ∧ day ≤ 31 then
    some ((century * 100 + inCentury, month, day), rest)
  else
    none

/-- A moment, if the text begins with something written like one; the day has to exist. -/
def readMoment? (text : Text) : Option (Except ReadError (Toml × Text)) :=
  match dateForm? text with
  | some ((year, month, day), rest) =>
      if year = 0 ∨ daysOf year month < day then
        some (.error .malformed)
      else
        let withTime : Option Text := match rest with
          | c :: more => if c = 'T' ∨ c = 't' ∨ c = ' ' then afterTime? more else none
          | [] => none
        match withTime with
        | some after => some (.ok (.dateTime, afterOffset after))
        | none => some (.ok (.date, rest))
  | none => (afterTime? text).map fun rest => .ok (.time, rest)

/-! ## Numbers -/

/-- The digits at the beginning of a text with single underscores between them, and what follows. -/
def scanDigits (isDigit : Char → Bool) (afterDigit : Bool) : Text → Text × Text
  | [] => ([], [])
  | c :: rest =>
      if isDigit c then
        let (digits, after) := scanDigits isDigit true rest
        (c :: digits, after)
      else if c = '_' ∧ afterDigit then
        match rest with
        | next :: _ =>
            if isDigit next then
              let (digits, after) := scanDigits isDigit false rest
              (c :: digits, after)
            else
              ([], c :: rest)
        | [] => ([], c :: rest)
      else
        ([], c :: rest)

/-- The digits of an integer with a base of its own, after its zero. -/
def scanBased? : Text → Option (Text × Text)
  | base :: rest =>
      let isDigit? : Option (Char → Bool) :=
        if base = 'x' then some fun c => (Json.hexValue? c).isSome
        else if base = 'b' then some fun c => c == '0' || c == '1'
        else if base = 'o' then some fun c => '0'.toNat ≤ c.toNat && c.toNat ≤ '7'.toNat
        else none
      isDigit?.bind fun isDigit =>
        match scanDigits isDigit false rest with
        | ([], _) => none
        | (digits, after) => some (base :: digits, after)
  | [] => none

def scanFraction (text : Text) : Text × Text :=
  match text with
  | '.' :: rest =>
      match scanDigits Text.isAsciiDigit false rest with
      | ([], _) => ([], text)
      | (digits, after) => ('.' :: digits, after)
  | _ => ([], text)

def scanExponent (text : Text) : Text × Text :=
  match text with
  | mark :: rest =>
      if mark = 'e' ∨ mark = 'E' then
        let (sign, body) : Text × Text := match rest with
          | c :: more => if c = '+' ∨ c = '-' then ([c], more) else ([], rest)
          | [] => ([], [])
        match scanDigits Text.isAsciiDigit false body with
        | ([], _) => ([], text)
        | (digits, after) => (mark :: sign ++ digits, after)
      else
        ([], text)
  | [] => ([], [])

/-- The whole part of a decimal number: a zero, or digits that do not begin with one. -/
def scanWhole? (text : Text) : Option (Text × Text) :=
  match text with
  | '0' :: rest => some (['0'], rest)
  | _ =>
      match scanDigits Text.isAsciiDigit false text with
      | ([], _) => none
      | (digits, after) => some (digits, after)

/-- A decimal number, if the text begins with one; an integer must not have too many digits. -/
def readDecimal? (text : Text) : Option (Except ReadError (Toml × Text)) :=
  let (sign, body) : Text × Text := match text with
    | c :: rest => if c = '+' ∨ c = '-' then ([c], rest) else ([], text)
    | [] => ([], [])
  (scanWhole? body).map fun (whole, afterWhole) =>
    let (fraction, afterFraction) := scanFraction afterWhole
    let (exponent, rest) := scanExponent afterFraction
    if fraction.isEmpty ∧ exponent.isEmpty then
      match Integer.read whole with
      | .ok _ => .ok (.integer (sign ++ whole), rest)
      | .error error => .error (.integer error)
    else
      .ok (.float (sign ++ whole ++ fraction ++ exponent), rest)

/-- An infinity or an undefined number with an optional sign, if the text begins with one. -/
def readSpecial? (text : Text) : Option (Except ReadError (Toml × Text)) :=
  let (sign, body) : Text × Text := match text with
    | c :: rest => if c = '+' ∨ c = '-' then ([c], rest) else ([], text)
    | [] => ([], [])
  match body with
  | 'i' :: 'n' :: 'f' :: rest => some (.ok (.float (sign ++ "inf".toList), rest))
  | 'n' :: 'a' :: 'n' :: rest => some (.ok (.float (sign ++ "nan".toList), rest))
  | _ => none

def readNumber? (text : Text) : Option (Except ReadError (Toml × Text)) :=
  match text with
  | '0' :: rest =>
      match scanBased? rest with
      | some (digits, after) => some (.ok (.integer ('0' :: digits), after))
      | none => readDecimal? text
  | _ => (readDecimal? text).orElse fun () => readSpecial? text

def readBool? : Text → Option (Except ReadError (Toml × Text))
  | 't' :: 'r' :: 'u' :: 'e' :: rest => some (.ok (.bool true, rest))
  | 'f' :: 'a' :: 'l' :: 's' :: 'e' :: rest => some (.ok (.bool false, rest))
  | _ => none

/-- A value without parts of its own. -/
def readScalar (text : Text) : Except ReadError (Toml × Text) :=
  let readTextValue : Option (Except ReadError (Toml × Text)) :=
    (readText? text).map fun read => read.map fun (value, rest) => (.string value, rest)
  (readTextValue.orElse fun () => (readBool? text).orElse fun () =>
    (readMoment? text).orElse fun () => readNumber? text).getD (.error .malformed)

end Retouch.Toml
