import Retouch.Command.Token

/-!
# Options among arguments

The engine reads arguments from left to right. An allowed flag takes as many of the arguments behind
it as its rule asks for, whatever they look like, and everything else stands by itself. What an
argument is therefore depends on the arguments before it, and only words that are sound, those that
leave nothing owed and show no forbidden flag, can be joined without a look at what is around them.
-/

namespace Retouch.Invocation

def takenBy (option : Text) : Nat :=
  if Flag.isAllowed option then Flag.arity option else 0

/-- The options among arguments, given how many of the first ones belong to an option before
them. -/
def optionsFrom : Nat → List Text → List Text
  | _, [] => []
  | owed + 1, _ :: rest => optionsFrom owed rest
  | 0, option :: rest => option :: optionsFrom (takenBy option) rest

def options (arguments : List Text) : List Text :=
  optionsFrom 0 arguments

def IsForbidden (argument : Text) : Prop :=
  Token.isFlag argument ∧ Flag.isAllowed argument = false

/-- Whether no option is a flag outside the allow-list. -/
def OptionsAllowed (arguments : List Text) : Prop :=
  ∀ option ∈ options arguments, ¬IsForbidden option

instance (argument : Text) : Decidable (IsForbidden argument) :=
  inferInstanceAs (Decidable (_ ∧ _))

instance (arguments : List Text) : Decidable (OptionsAllowed arguments) :=
  inferInstanceAs (Decidable (∀ option ∈ options arguments, ¬IsForbidden option))

/-- Whether words, wherever they stand as options, show no forbidden flag and leave nothing owed. -/
def AreSound (words : List Text) : Prop :=
  ∀ rest, ∃ own, optionsFrom 0 (words ++ rest) = own ++ optionsFrom 0 rest ∧
    ∀ option ∈ own, ¬IsForbidden option

/-- Whether words, wherever they stand as options, show a forbidden flag. -/
def Leak (words : List Text) : Prop :=
  ∀ rest, ∃ option ∈ optionsFrom 0 (words ++ rest), IsForbidden option

/-- Arguments that are owed are passed over. -/
theorem optionsFrom_length (arguments rest : List Text) :
    optionsFrom arguments.length (arguments ++ rest) = optionsFrom 0 rest := by
  induction arguments with
  | nil => rfl
  | cons argument arguments ih => exact ih

theorem mem_of_mem_optionsFrom {owed : Nat} {arguments : List Text} {option : Text}
    (member : option ∈ optionsFrom owed arguments) : option ∈ arguments := by
  induction arguments generalizing owed with
  | nil => simp [optionsFrom] at member
  | cons first rest ih =>
      cases owed with
      | zero =>
          rcases List.mem_cons.mp member with rfl | later
          · exact List.mem_cons_self
          · exact List.mem_cons_of_mem _ (ih later)
      | succ owed => exact List.mem_cons_of_mem _ (ih member)

/-- Arguments none of which is forbidden have allowed options, whatever is owed. -/
theorem optionsAllowed_of_forall {arguments : List Text}
    (harmless : ∀ argument ∈ arguments, ¬IsForbidden argument) : OptionsAllowed arguments :=
  fun option member => harmless option (mem_of_mem_optionsFrom member)

theorem areSound_nil : AreSound [] := fun _ => ⟨[], rfl, by simp⟩

theorem areSound_cons {option : Text} (harmless : ¬IsForbidden option) {arguments : List Text}
    (all : arguments.length = takenBy option) : AreSound (option :: arguments) := by
  intro rest
  refine ⟨[option], ?_, by simpa using harmless⟩
  rw [List.cons_append, optionsFrom, ← all, optionsFrom_length]
  rfl

theorem AreSound.append {front back : List Text} (soundFront : AreSound front)
    (soundBack : AreSound back) :
    AreSound (front ++ back) := by
  intro rest
  obtain ⟨own, options, harmless⟩ := soundFront (back ++ rest)
  obtain ⟨others, otherOptions, harmlessOthers⟩ := soundBack rest
  refine ⟨own ++ others, ?_, ?_⟩
  · rw [List.append_assoc, options, otherOptions, List.append_assoc]
  · intro option member
    rcases List.mem_append.mp member with inFront | inBack
    · exact harmless option inFront
    · exact harmlessOthers option inBack

theorem areSound_flatten {groups : List (List Text)}
    (areSound : ∀ group ∈ groups, AreSound group) :
    AreSound groups.flatten := by
  induction groups with
  | nil => exact areSound_nil
  | cons group groups ih =>
      exact (areSound group (by simp)).append
        (ih fun other member => areSound other (List.mem_cons_of_mem _ member))

/-- Sound words do not hide what leaks behind them. -/
theorem AreSound.append_leak {front back : List Text} (sound : AreSound front) (leak : Leak back) :
    Leak (front ++ back) := by
  intro rest
  obtain ⟨own, options, -⟩ := sound (back ++ rest)
  obtain ⟨option, member, forbidden⟩ := leak rest
  rw [List.append_assoc, options]
  exact ⟨option, List.mem_append_right _ member, forbidden⟩

theorem Leak.append {front : List Text} (leak : Leak front) (back : List Text) :
    Leak (front ++ back) := by
  intro rest
  rw [List.append_assoc]
  exact leak (back ++ rest)

/-- A forbidden flag leaks where it stands as an option. -/
theorem leak_cons {option : Text} (forbidden : IsForbidden option) (words : List Text) :
    Leak (option :: words) :=
  fun _ => ⟨option, List.mem_cons_self, forbidden⟩

theorem AreSound.optionsAllowed {words : List Text} (sound : AreSound words) :
    OptionsAllowed words := by
  obtain ⟨own, options, harmless⟩ := sound []
  rw [List.append_nil] at options
  intro option member
  rw [Invocation.options, options, optionsFrom, List.append_nil] at member
  exact harmless option member

theorem Leak.not_optionsAllowed {words : List Text} (leak : Leak words) :
    ¬OptionsAllowed words := by
  obtain ⟨option, member, forbidden⟩ := leak []
  rw [List.append_nil] at member
  exact fun allowed => allowed option member forbidden

theorem AreSound.not_leak {words : List Text} (sound : AreSound words) : ¬Leak words :=
  fun leak => leak.not_optionsAllowed sound.optionsAllowed

/-- Of groups of words that are sound or leak, the first one that leaks shows. -/
theorem optionsAllowed_flatten_iff {groups : List (List Text)}
    (either : ∀ group ∈ groups, AreSound group ∨ Leak group) :
    OptionsAllowed groups.flatten ↔ ∀ group ∈ groups, ¬Leak group := by
  have sound_or_leak : (AreSound groups.flatten ∧ ∀ group ∈ groups, ¬Leak group) ∨
      (Leak groups.flatten ∧ ∃ group ∈ groups, Leak group) := by
    induction groups with
    | nil => exact .inl ⟨areSound_nil, by simp⟩
    | cons group groups ih =>
        rw [List.flatten_cons]
        rcases either group (by simp) with sound | leak
        · have notLeak := sound.not_leak
          rcases ih fun other member => either other (List.mem_cons_of_mem _ member) with
            ⟨soundRest, none⟩ | ⟨leakRest, some⟩
          · exact .inl ⟨sound.append soundRest, by simpa [notLeak] using none⟩
          · exact .inr ⟨sound.append_leak leakRest, by simpa using Or.inr some⟩
        · exact .inr ⟨leak.append _, group, by simp, leak⟩
  rcases sound_or_leak with ⟨sound, none⟩ | ⟨leak, group, member, leaks⟩
  · exact ⟨fun _ => none, fun _ => sound.optionsAllowed⟩
  · exact ⟨fun allowed => absurd allowed leak.not_optionsAllowed,
      fun none => absurd leaks (none group member)⟩

end Retouch.Invocation
