import Retouch.Command.Token

/-!
# Literal arguments

The engine sees arguments without their quotes: a backslash takes the next character as it is, a
quote opens or closes a stretch in which spaces and tabs do not separate, and parentheses have no
meaning. Quoting a value is the inverse: reading a quoted non-empty value gives the value back.
-/

namespace Retouch.Literal

/-- Where a reader of literal arguments stands. -/
structure State where
  /-- The characters of the current argument, the last one first. -/
  current : Text := []
  quote : Option Char := none
  /-- Whether the next character is taken as it is. -/
  escaped : Bool := false
  deriving DecidableEq

/-- The current argument as a list of at most one argument. -/
def State.flush (state : State) : List Text :=
  if state.current.isEmpty then [] else [state.current.reverse]

/-- One character: the state after it and the arguments that it ends. -/
def step (state : State) (c : Char) : State × List Text :=
  if state.escaped then
    ({ state with current := c :: state.current, escaped := false }, [])
  else if c = '\\' then
    ({ state with escaped := true }, [])
  else
    match state.quote with
    | some quote =>
        if c = quote then ({ state with quote := none }, [])
        else ({ state with current := c :: state.current }, [])
    | none =>
        if Token.isQuote c then ({ state with quote := some c }, [])
        else if Token.isSeparator c then ({ state with current := [] }, state.flush)
        else ({ state with current := c :: state.current }, [])

/-- The arguments of the rest of a text, given the state before it. -/
def splitFrom (state : State) : Text → List Text
  | [] => state.flush
  | c :: rest => (step state c).2 ++ splitFrom (step state c).1 rest

def split (text : Text) : List Text :=
  splitFrom {} text

/-- Whether a character has a meaning to a reader, so that a value with it has to be quoted. -/
def isSpecial (c : Char) : Bool :=
  Token.isSeparator c || Token.isParenthesis c || Token.isQuote c || c == '\\'

/-- One character of a quoted value: a backslash and a single quote are escaped. -/
def escapeChar (c : Char) : Text :=
  if c = '\\' ∨ c = '\x27' then ['\\', c] else [c]

/-- A value as it is written in a command: as it is if nothing in it has a meaning, or else between
single quotes. -/
def quote (value : Text) : Text :=
  if value.any isSpecial then '\x27' :: value.flatMap escapeChar ++ ['\x27'] else value

end Retouch.Literal
