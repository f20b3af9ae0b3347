import Retouch.Flag.Rule
import Retouch.Number.Numeral
import Retouch.Text.Blank

/-!
# Tokens

A command is read as a list of tokens: flags, group delimiters and arguments. A quoted literal that
begins a token is one token up to its closing quote, quotes included; parentheses stand alone; every
other token runs up to the next space, tab or parenthesis. Quotes are kept, so that a literal passes
from one text to the next unchanged.
-/

namespace Retouch.Token

def isSeparator (c : Char) : Bool :=
  c == ' ' || c == '\t'

def isQuote (c : Char) : Bool :=
  c == '\x27' || c == '\x22'

def isParenthesis (c : Char) : Bool :=
  c == '(' || c == ')'

/-- Whether a character can continue a token that is not a literal. -/
def isPlain (c : Char) : Bool :=
  !isSeparator c && !isParenthesis c

def groupOpen : Text := "("

def groupClose : Text := ")"

def isGroup (token : Text) : Bool :=
  token == groupOpen || token == groupClose

/-- Whether a token is a flag: a sign and a name. A signed number or offset is not a flag. -/
def isFlag (token : Text) : Bool :=
  match token with
  | sign :: second :: _ =>
      (sign == '-' || sign == '+') && !(Text.isAsciiDigit second || second == '.') &&
        !Numeral.isNumber token
  | _ => false

/-- Whether a token is an argument: neither a flag nor a group delimiter. -/
def isArgument (token : Text) : Bool :=
  !isGroup token && !isFlag token

/-- The arguments at the beginning of a token list, up to the first flag or group delimiter. -/
def argumentRun (tokens : List Text) : List Text :=
  tokens.takeWhile isArgument

/-- The arguments from a position on, up to the first flag or group delimiter. A negative position
counts from the end of the list. -/
def argumentRunFrom (tokens : List Text) (position : Int) : List Text :=
  let start := if position < 0 then position + tokens.length else position
  argumentRun (tokens.drop start.toNat)

def scan : Text → List Text
  | [] => []
  | c :: rest =>
      if isSeparator c then
        scan rest
      else if isQuote c then
        -- up to the closing quote, or to the end where there is none
        (c :: rest.takeWhile (· != c) ++ (rest.dropWhile (· != c)).take 1) ::
          scan ((rest.dropWhile (· != c)).drop 1)
      else if isParenthesis c then
        [c] :: scan rest
      else
        -- a quote inside of a word is a character like any other
        (c :: rest.takeWhile isPlain) :: scan (rest.dropWhile isPlain)
termination_by text => text.length
decreasing_by
  · simp
  · have := (List.dropWhile_suffix (· != c) (l := rest)).length_le
    simp only [List.length_drop, List.length_cons]
    omega
  · simp
  · have := (List.dropWhile_suffix isPlain (l := rest)).length_le
    simp only [List.length_cons]
    omega

/-- The tokens of a text, blanks around the text left out. -/
def ofText (text : Text) : List Text :=
  scan (Text.trim text)

end Retouch.Token
