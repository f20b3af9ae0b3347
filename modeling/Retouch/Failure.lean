import Retouch.Text.Basic

/-!
# Failures

A failure is something that went wrong outside of what a part of the program knows: it is passed on
with its kind and its message and is not looked into. A failure may refuse to tell its message; who
asks for the message then fails in turn.
-/

namespace Retouch

/-- What went wrong elsewhere. -/
inductive Failure where
  | told (kind message : Text)
  /-- Asking for its message is another failure. -/
  | untold (kind : Text) (asking : Failure)
  deriving DecidableEq

namespace Failure

def kind : Failure → Text
  | .told kind _ => kind
  | .untold kind _ => kind

/-- The message, or what comes of asking for it. -/
def message : Failure → Except Failure Text
  | .told _ message => .ok message
  | .untold _ asking => .error asking

def IsTold (failure : Failure) : Prop :=
  ∃ message, failure.message = .ok message

/-- What stands for the message where nobody can fail any more. -/
def placeholder : Text := "<exception str() failed>"

/-- The message as it is shown in the end, also of a failure that does not tell it. -/
def shown : Failure → Text
  | .told _ message => message
  | .untold .. => placeholder

end Failure

end Retouch
