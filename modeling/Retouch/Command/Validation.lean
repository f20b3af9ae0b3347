import Retouch.Command.Cleanup

/-!
# Validation

Validation reads the tokens of a text as consecutive blocks and judges each block on its own. A
group delimiter, or an allowed flag with the arguments that its rule asks for, is kept; a stray
token, an unknown flag with its arguments, and a flag whose arguments are too few or not allowed are
removed, each with one reason. The command that remains consists of whole units, so everything that
survives is a safe part of the text.
-/

namespace Retouch

namespace Validation

/-- Why a block was removed. -/
inductive Reason where
  | strayToken (token : Text)
  /-- The flag is not allowed; the arguments that follow it go with it. -/
  | unknownFlag (flag : Text) (arguments : List Text)
  | missingArguments (flag : Text) (needed got : Nat)
  | invalidValue (flag : Text) (arguments : List Text) (value : Text)
  | invalidKernel (flag : Text) (arguments : List Text) (kernel : Text)
  deriving DecidableEq

def Reason.message : Reason → Text
  | .strayToken token => "\"" ++ token ++ "\" (stray token)"
  | .unknownFlag flag arguments => Text.unwords (flag :: arguments) ++ " (unknown flag)"
  | .missingArguments flag needed got =>
      flag ++ " (missing arguments, need " ++ Decimal.naturalText needed ++ ", got " ++
        Decimal.naturalText got ++ ")"
  | .invalidValue flag arguments value =>
      flag ++ " " ++ Text.unwords arguments ++ " (invalid value \"" ++ value ++ "\")"
  | .invalidKernel flag arguments kernel =>
      flag ++ " " ++ Text.unwords arguments ++ " (invalid kernel \"" ++ kernel ++ "\")"

inductive Verdict where
  | kept
  | removed (reason : Reason)
  deriving DecidableEq

/-- Consecutive tokens that are judged together. -/
structure Block where
  /-- The tokens, at least one. -/
  tokens : List Text
  verdict : Verdict
  deriving DecidableEq

/-- The tokens that a block gives to the command. -/
def Block.kept (block : Block) : List Text :=
  match block.verdict with
  | .kept => block.tokens
  | .removed _ => []

/-- The reason of a removed block. -/
def Block.reason? (block : Block) : Option Reason :=
  match block.verdict with
  | .kept => none
  | .removed reason => some reason

/-- Whether a text begins with a size, digits on both sides of an x. -/
def beginsWithSize (text : Text) : Bool :=
  !(text.takeWhile Text.isDigit).isEmpty &&
    match text.dropWhile Text.isDigit with
    | 'x' :: c :: _ => Text.isDigit c
    | _ => false

/-- Whether an argument is a kernel of the user: a quoted literal or a matrix of a given size. -/
def isCustomKernel (argument : Text) : Bool :=
  argument.head?.any Token.isQuote || beginsWithSize argument

/-- The part of a first argument that is checked against a rule. -/
def checkedPart (rule : Flag.Rule) (argument : Text) : Text :=
  if rule.cutsSuffix then Text.before ':' argument else argument

def firstFault? (rule : Flag.Rule) (arguments : List Text) : Option Reason :=
  match rule.firstValues, arguments with
  | some allowed, first :: _ =>
      let value := checkedPart rule first
      if allowed.contains value then none else some (.invalidValue rule.flag arguments value)
  | _, _ => none

def secondFault? (rule : Flag.Rule) (arguments : List Text) : Option Reason :=
  match rule.secondValues, arguments with
  | some allowed, _ :: second :: _ =>
      -- sizes after a colon are not looked at
      let kernel := Text.before ':' second
      if isCustomKernel second || allowed.contains kernel then none
      else some (.invalidKernel rule.flag arguments kernel)
  | _, _ => none

def fault? (rule : Flag.Rule) (arguments : List Text) : Option Reason :=
  (firstFault? rule arguments).or (secondFault? rule arguments)

/-- The block of an allowed flag with a rule, given the arguments that follow it. -/
def judgeRuled (rule : Flag.Rule) (run : List Text) : Block :=
  if run.length < rule.arity then
    ⟨rule.flag :: run, .removed (.missingArguments rule.flag rule.arity run.length)⟩
  else
    let arguments := run.take rule.arity
    match fault? rule arguments with
    | some reason => ⟨rule.flag :: arguments, .removed reason⟩
    | none => ⟨rule.flag :: arguments, .kept⟩

/-- The block that begins with a token, given the arguments that follow the token. -/
def judge (token : Text) (run : List Text) : Block :=
  if Token.isGroup token then ⟨[token], .kept⟩
  else if !Token.isFlag token then ⟨[token], .removed (.strayToken token)⟩
  -- how many arguments an unknown flag takes is not known, so all that follow go with it
  else if !Flag.isAllowed token then ⟨token :: run, .removed (.unknownFlag token run)⟩
  else
    match Flag.rule? token with
    | none => ⟨[token], .kept⟩
    | some rule => judgeRuled rule run

def blocks : List Text → List Block
  | [] => []
  | token :: rest =>
      let block := judge token (Token.argumentRun rest)
      block :: blocks (rest.drop (block.tokens.length - 1))
termination_by tokens => tokens.length
decreasing_by simp only [List.length_drop, List.length_cons]; omega

end Validation

/-- What validation makes of a text: the command that remains and the reasons of the removals. -/
structure Validation where
  /-- The tokens that are kept, with single spaces between them. -/
  command : Text
  /-- A text for each removed block, in order. -/
  stripped : List Text
  deriving DecidableEq

namespace Validation

def ofBlocks (blocks : List Block) : Validation where
  command := Text.unwords (blocks.flatMap Block.kept)
  stripped := (blocks.filterMap Block.reason?).map Reason.message

def ofText (text : Text) : Validation :=
  ofBlocks (blocks (Token.ofText (Cleanup.forValidation text)))

end Validation

end Retouch
