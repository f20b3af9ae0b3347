import Retouch.Command.Label

/-!
# Segments of a command

A command is cut into segments that can be switched on and off on their own: a channel selection
with its matching close, a group with its matching close, or a single flag with the arguments that
its rule asks for. Tokens that no segment needs are skipped: stray arguments, closes without an
opening, and the safety pair that the engine call adds by itself.
-/

namespace Retouch.Segment

inductive Kind where
  | region
  | group
  | atom
  /-- Tokens that no entry needs. -/
  | skipped
  deriving DecidableEq

end Segment

/-- Consecutive tokens of a command. -/
structure Segment where
  kind : Segment.Kind
  /-- The tokens, at least one. -/
  tokens : List Text
  deriving DecidableEq

/-- A part of a command under a label. -/
structure LabelledCommand where
  label : Text
  command : Text
  deriving DecidableEq

namespace Segment

/-- The number of tokens up to the one that closes the current level, given how many levels are open
inside of it. -/
def lengthToClose? (opener closer : Text) (inner : Nat) : List Text → Option Nat
  | [] => none
  | token :: rest =>
      if token = opener then
        (lengthToClose? opener closer (inner + 1) rest).map (· + 1)
      else if token = closer then
        match inner with
        | 0 => some 1
        | inner + 1 => (lengthToClose? opener closer inner rest).map (· + 1)
      else
        (lengthToClose? opener closer inner rest).map (· + 1)

def safetyFlag : Text := "-alpha"

def safetyArgument : Text := "opaque"

/-- The segment of a token that opens nothing. -/
def single (token : Text) (rest : List Text) : Segment :=
  if !Token.isFlag token || token = Flag.regionClose then
    ⟨.skipped, [token]⟩
  else
    let arguments := (Token.argumentRun rest).take (Flag.arity token)
    if token = safetyFlag ∧ arguments.head? = some safetyArgument then
      ⟨.skipped, token :: arguments⟩
    else
      ⟨.atom, token :: arguments⟩

def first (token : Text) (rest : List Text) : Segment :=
  if token = Flag.regionOpen then
    -- a selection that is never closed is a flag like any other
    match lengthToClose? Flag.regionOpen Flag.regionClose 0 rest with
    | some length => ⟨.region, token :: rest.take length⟩
    | none => single token rest
  else if token = Token.groupOpen then
    -- a group that is never closed leaves its delimiter alone
    match lengthToClose? Token.groupOpen Token.groupClose 0 rest with
    | some length => ⟨.group, token :: rest.take length⟩
    | none => single token rest
  else
    single token rest

def ofTokens : List Text → List Segment
  | [] => []
  | token :: rest =>
      let segment := first token rest
      segment :: ofTokens (rest.drop (segment.tokens.length - 1))
termination_by tokens => tokens.length
decreasing_by simp only [List.length_drop, List.length_cons]; omega

def label (segment : Segment) : Text :=
  match segment.kind, segment.tokens with
  | .region, tokens => Label.ofRegion (tokens.drop 1).dropLast
  | .group, _ => Label.group
  | _, flag :: arguments => Label.ofFlag flag arguments
  | _, [] => []

/-- The entry that a segment makes, unless it is skipped. -/
def entry? (segment : Segment) : Option LabelledCommand :=
  if segment.kind = .skipped then none
  else some ⟨segment.label, Text.unwords segment.tokens⟩

def split (command : Text) : List LabelledCommand :=
  (ofTokens (Token.ofText command)).filterMap entry?

end Segment

end Retouch
