import Retouch.Command.Literal
import Retouch.Effect.Family

/-!
# From commands to effects

A command is taken apart flag by flag. The family of a flag reads the arguments that follow it, up
to the next flag or group delimiter, and says how many of them it takes; a family that misses its
argument leaves the flag to the generic one. A selection of all colour channels around a single
operation that has such a selection of its own is part of that operation.
-/

namespace Retouch

namespace Family

/-- What a family makes of a flag with its arguments: an effect and the number of arguments that it
takes. -/
abbrev Reading := Option (Effect × Nat)

/-- Any flag with all of its arguments in one verbatim slot. -/
def readGeneric (flag : Text) (run : List Text) : Effect × Nat :=
  let name := Flag.canonical flag
  let raw := Text.unwords (run.map Literal.quote)
  let slots := if raw.isEmpty then [] else [Slot.text "Args" raw true]
  (⟨name, name, slots⟩, run.length)

/-- A number, or a text where the argument is none. -/
def readAmount (range : NumberRange) (argument : Text) : Slot :=
  match Numeral.quantity? argument with
  | some (value, percent) =>
      let unit := if range.unit.isEmpty then percent else range.unit
      .number range.label (.float value) range.minimum range.maximum range.step unit
  | none => .text range.label argument false

/-- Numbers with commas or the letter x between them; the neutral value stands for a bad or missing
one. -/
def readAmounts (parts : List (NumberRange × Number)) (argument : Text) : List Slot :=
  let pieces := Text.splitOn ',' (argument.map fun c => if c = 'x' then ',' else c)
  parts.zipIdx.map fun ((range, neutral), index) =>
    let value := match (pieces[index]?).bind fun piece => Numeral.quantity? (Text.trim piece) with
      | some (value, _) => .float value
      | none => neutral
    .number range.label value range.minimum range.maximum range.step range.unit

def defaultKernel : Text := "Disk"

/-- The two sizes written after the colon of a kernel. -/
def readSizes (suffix : Text) : Binary64 × Binary64 :=
  match Text.splitOn 'x' suffix with
  | first :: second :: _ => (Numeral.leadingValue first, Numeral.leadingValue second)
  | _ => (Numeral.leadingValue suffix, .zero false)

/-- The name and the sizes of a kernel. A kernel of the user is a name with everything in it. -/
def readKernel (argument : Option Text) : Text × Binary64 × Binary64 :=
  let written := argument.getD []
  let base := Text.before ':' written
  let kernel := if base.isEmpty then defaultKernel else base
  let suffix := (Text.after? ':' written).getD []
  -- a kernel of the user stays as it is, its colon with it
  if !Vocabulary.morphologyKernels.contains kernel then
    (written, .zero false, .zero false)
  else if !suffix.isEmpty then
    (kernel, readSizes suffix)
  else if Vocabulary.shapedKernels.contains kernel then
    (kernel, .ofInt 1, .zero false)
  else
    (kernel, .zero false, .zero false)

def morphologySlots (method : Text) (kernel : Option Text) : List Slot :=
  let (name, first, second) := readKernel kernel
  [.select "Method" method Vocabulary.morphologyMethods,
   .select "Kernel" name Vocabulary.morphologyKernels,
   .number "Rad/W" (.float first) 0 50 (tenths 5) [],
   .number "Sig/H" (.float second) 0 50 (tenths 5) []]

def defaultParameter : Text := "0"

def readParameter (isNumeric : Bool) (argument : Option Text) : Slot :=
  let written := argument.getD defaultParameter
  if isNumeric then
    match Numeral.quantity? written with
    | some (value, percent) => .number "Val" (.float value) 0 10 (tenths 1) percent
    | none => .text "Val" written false
  else
    .text "Args" written false

/-- What a family makes of a flag, given the arguments that follow it; nothing if the flag misses
its argument. -/
def read (family : Family) (flag : Text) (run : List Text) : Reading :=
  let name := Flag.canonical flag
  match family, run with
  | .toggle label _ _, _ => some (⟨label, name, [.number "Active" 1 0 1 1 []]⟩, 0)
  | .channelReset, _ => some (⟨"Channel Reset", Flag.regionClose, []⟩, 0)
  | .generic, _ => some (readGeneric flag run)
  | _, [] => none
  | .amount range _, argument :: _ => some (⟨range.label, name, [readAmount range argument]⟩, 1)
  | .amounts label parts, argument :: _ => some (⟨label, name, readAmounts parts argument⟩, 1)
  | .morphology, word :: others =>
      some (⟨"Morphology", name, morphologySlots word others.head?⟩, 1 + (others.take 1).length)
  | .method label methods isNumeric, word :: others =>
      some (⟨label, name,
        [.select "Method" word methods, readParameter isNumeric others.head?]⟩,
        1 + (others.take 1).length)
  | .choice label slot options, argument :: _ =>
      some (⟨label, name, [.select slot argument options]⟩, 1)
  | .color label slot, argument :: _ => some (⟨label, name, [.color slot argument]⟩, 1)
  | .freeText label slot, argument :: _ => some (⟨label, name, [.text slot argument false]⟩, 1)

end Family

namespace Effect

/-- The effect of a flag and the number of tokens that it takes after the flag. -/
def readFlag (flag : Text) (rest : List Text) : Effect × Nat :=
  let run := Token.argumentRun rest
  ((Family.ofFlag (Flag.canonical flag)).read flag run).getD (Family.readGeneric flag run)

/-- The effect of a channel selection that belongs to a single operation, and the number of tokens
that it takes after the opening flag. -/
def readScoped? (rest : List Text) : Option (Effect × Nat) :=
  match rest with
  | target :: flag :: following =>
      let family := Family.ofFlag (Flag.canonical flag)
      if target = Family.scopeTarget ∧ Token.isFlag flag ∧ family.isScoped then
        match family.read flag (Token.argumentRun following) with
        | some (effect, count) =>
            -- the selection has to end right behind the arguments that are taken
            if (following.drop count).head? = some Flag.regionClose then some (effect, count + 3)
            else none
        | none => none
      else
        none
  | _ => none

/-- The effect that begins with a flag, and the number of tokens that it takes after the flag. -/
def readFirst (flag : Text) (rest : List Text) : Effect × Nat :=
  if flag = Flag.regionOpen then (readScoped? rest).getD (readFlag flag rest)
  else readFlag flag rest

/-- The effects of a token list; arguments that no flag takes are left out. -/
def ofTokens : List Text → List Effect
  | [] => []
  | token :: rest =>
      if Token.isFlag token then
        (readFirst token rest).1 :: ofTokens (rest.drop (readFirst token rest).2)
      else
        ofTokens rest
termination_by tokens => tokens.length
decreasing_by
  · simp only [List.length_drop, List.length_cons]
    omega
  · simp

def ofCommand (command : Text) : List Effect :=
  ofTokens (Literal.split command)

end Effect

end Retouch
