/-!
# Progress

Work on a state may end early. What was done to the state before that stays done, so the state comes
along with the error.
-/

namespace Retouch

/-- What comes of work on a state. -/
structure Progress (State Error : Type) where
  state : State
  /-- Why the work ended early, if it did. -/
  error : Option Error := none
  deriving DecidableEq

namespace Progress

variable {State Error Other : Type}

/-- Goes on with a step, unless the work ended early. -/
def andThen (progress : Progress State Error) (step : State → Progress State Error) :
    Progress State Error :=
  match progress.error with
  | none => step progress.state
  | some _ => progress

/-- The same work with its error seen as another one. -/
def mapError (change : Error → Other) (progress : Progress State Error) : Progress State Other :=
  ⟨progress.state, progress.error.map change⟩

end Progress

end Retouch
