import Retouch.Record
import Retouch.Text.Digit

/-!
# Arguments

The arguments of a command are options, which begin with a dash, and at most one text. An option is
recognised by its name or by a beginning of it that no other option has; its value follows it or
stands behind an equals sign. Behind two dashes on their own there are no options, and two dashes
are never the value of an option: behind its equals sign they leave it without a value. An argument
that looks like a negative number or has a space in it is no option, unless it begins like one.
-/

namespace Retouch.Arguments

/-- What an option stands for. -/
inductive Meaning where
  | help
  | switch
  /-- It has a value, which must pass a test. -/
  | value (isAllowed : Text → Bool)

structure OptionForm where
  /-- The name with its dashes. -/
  name : Text
  meaning : Meaning
  isRequired : Bool := false

/-- The arguments that a command takes. -/
structure Grammar where
  /-- The options besides those for help. -/
  options : List OptionForm
  takesText : Bool

def shortHelp : Text := "-h"

/-- The options for help, which every command has. -/
def helpOptions : List OptionForm :=
  [{ name := shortHelp, meaning := .help }, { name := "--help", meaning := .help }]

def separator : Text := "--"

inductive Item where
  | plain (text : Text)
  | separator
  /-- An option, and what stands behind its name in the same argument. -/
  | option (form : OptionForm) (attached : Option Text)
  /-- Something that begins like an option and is none. -/
  | unknown

/-- Whether a text is a dash and a number, which may have a point but no exponent; a line feed may
follow it. -/
def isNegativeNumber (text : Text) : Bool :=
  match text with
  | '-' :: rest =>
      let body := if rest.getLast? = some '\n' then rest.dropLast else rest
      match body.dropWhile Text.isDigit with
      | [] => !body.isEmpty
      | '.' :: fraction => !fraction.isEmpty && fraction.all Text.isDigit
      | _ => false
  | _ => false

/-- The options as which an argument can be read that is no full name: those that it is a beginning
of, and for a single dash those whose short name it begins with. -/
def readings (forms : List OptionForm) (argument : Text) : List Item :=
  if Text.startsWith argument separator then
    (forms.filter fun form => Text.startsWith form.name (Text.before '=' argument)).map
      fun form => .option form (Text.after? '=' argument)
  else
    forms.filterMap fun form =>
      if form.name = argument.take 2 then some (.option form (some (argument.drop 2)))
      else if Text.startsWith form.name argument then some (.option form none)
      else none

/-- What an argument is, given the options; nothing if it can be read as several of them. -/
def classify (forms : List OptionForm) (argument : Text) : Option Item :=
  if argument.head? ≠ some '-' then
    some (.plain argument)
  else
    match forms.find? (·.name == argument) with
    | some form => some (.option form none)
    | none =>
        -- a dash alone is no option
        if argument.length = 1 then
          some (.plain argument)
        else
          match forms.find? (·.name == Text.before '=' argument) with
          | some form => some (.option form (Text.after? '=' argument))
          | none =>
              match readings forms argument with
              | [reading] => some reading
              -- no option at all: what looks like a number or has a space in it is meant as a text
              | [] =>
                  if isNegativeNumber argument || argument.contains ' ' then some (.plain argument)
                  else some .unknown
              | _ => none

/-- What the arguments are; nothing if one of them can be read as several options. -/
def itemsOf (forms : List OptionForm) : List Text → Option (List Item)
  | [] => some []
  | argument :: rest =>
      if argument = separator then
        some (.separator :: rest.map .plain)
      else do
        let item ← classify forms argument
        let items ← itemsOf forms rest
        return item :: items

/-- What has been taken from the arguments. -/
structure Taken where
  text : Option Text := none
  /-- The options that are there with a value or should have one. -/
  values : Record (Option Text) := []
  switches : List Text := []
  /-- Whether something was there that is not taken. -/
  hasExtra : Bool := false

inductive Outcome where
  | help
  | misuse
  | taken (taken : Taken)

/-- Whether help is shown for an option for help with a text attached to it: the text repeats the
letter of the short option. -/
def isRepeatedHelp (form : OptionForm) (attached : Text) : Bool :=
  form.name == shortHelp && !attached.isEmpty && attached.all (· == 'h')

namespace Taken

def needsText (taken : Taken) (grammar : Grammar) : Bool :=
  grammar.takesText && taken.text.isNone

/-- Takes something as the text, or counts it as extra. -/
def withText (taken : Taken) (grammar : Grammar) (text : Text) : Taken :=
  if taken.needsText grammar then { taken with text := some text }
  else { taken with hasExtra := true }

def withValue (taken : Taken) (name value : Text) : Taken :=
  { taken with values := taken.values.set name (some value) }

/-- Takes an option that two dashes leave without a value. -/
def withoutValue (taken : Taken) (name : Text) : Taken :=
  { taken with values := taken.values.set name none }

def value? (taken : Taken) (name : Text) : Option Text :=
  (taken.values.get? name).join

def has (taken : Taken) (name : Text) : Bool :=
  (taken.values.get? name).isSome || taken.switches.contains name

/-- Whether all is there that must be, and nothing else. -/
def isComplete (taken : Taken) (grammar : Grammar) : Bool :=
  !taken.hasExtra && !taken.needsText grammar &&
    grammar.options.all fun form => !form.isRequired || taken.has form.name

end Taken

/-- Takes arguments in order. The two dashes go with the text before or behind them. -/
def take (grammar : Grammar) (taken : Taken) : List Item → Outcome
  | [] => if taken.isComplete grammar then .taken taken else .misuse
  | .plain text :: .separator :: rest =>
      let next := taken.withText grammar text
      take grammar { next with hasExtra := next.hasExtra || !taken.needsText grammar } rest
  | .plain text :: rest => take grammar (taken.withText grammar text) rest
  | .separator :: .plain text :: rest => take grammar (taken.withText grammar text) rest
  | .separator :: rest => take grammar { taken with hasExtra := true } rest
  | .unknown :: rest => take grammar { taken with hasExtra := true } rest
  | .option form attached? :: rest =>
      match form.meaning, attached? with
      | .help, none => .help
      | .help, some attached => if isRepeatedHelp form attached then .help else .misuse
      | .switch, none => take grammar { taken with switches := form.name :: taken.switches } rest
      | .switch, some _ => .misuse
      | .value isAllowed, some attached =>
          if attached = separator then take grammar (taken.withoutValue form.name) rest
          else if isAllowed attached then take grammar (taken.withValue form.name attached) rest
          else .misuse
      | .value isAllowed, none =>
          match rest with
          | .plain value :: more =>
              if isAllowed value then take grammar (taken.withValue form.name value) more
              else .misuse
          | _ => .misuse

def read (grammar : Grammar) (arguments : List Text) : Outcome :=
  match itemsOf (helpOptions ++ grammar.options) arguments with
  | some items => take grammar {} items
  | none => .misuse

end Retouch.Arguments
