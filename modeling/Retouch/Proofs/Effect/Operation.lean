import Retouch.Proofs.Effect.Settled

/-!
# Settled operations

An operation is a flag with settled arguments. Every effect that was read is written as one, and it
plays the same part for channel selections as what is made of the operation when it is read again.
-/

namespace Retouch

namespace Flag

/-- Whether a flag is read as it is written: one token, which is a flag. -/
structure IsWritable (flag : Text) : Prop where
  isFlag : Token.isFlag flag
  bare : Literal.IsBare flag

end Flag

namespace Effect

open Family

/-- Whether an effect selects all colour channels. -/
def SelectsAll (effect : Effect) : Prop :=
  effect.flag = "channel".toList ∧ effect.slots.map Slot.valueText = [Family.scopeTarget]

/-- Whether an effect has a value and gets a selection of its own unless one is open. -/
def GetsScope (effect : Effect) : Prop :=
  (Family.ofFlag effect.flag).isScoped ∧ effect.slots ≠ []

/-- Whether two effects play the same part for channel selections. -/
structure Alike (first second : Effect) : Prop where
  isScoped : (Family.ofFlag first.flag).isScoped = (Family.ofFlag second.flag).isScoped
  closes : first.flag = Flag.regionClose ↔ second.flag = Flag.regionClose
  opens : first.flag = "channel".toList ↔ second.flag = "channel".toList
  selectsAll : first.SelectsAll ↔ second.SelectsAll
  getsScope : first.GetsScope ↔ second.GetsScope

theorem Alike.refl (effect : Effect) : Alike effect effect :=
  ⟨rfl, Iff.rfl, Iff.rfl, Iff.rfl, Iff.rfl⟩

theorem Alike.scopeAfter {first second : Effect} (alike : Alike first second) (scopeOpen : Bool) :
    first.scopeAfter scopeOpen = second.scopeAfter scopeOpen := by
  simp only [Effect.scopeAfter, alike.closes, alike.opens]

theorem readRun_congr {flag other : Text} (same : Flag.canonical flag = Flag.canonical other)
    (run : List Text) : readRun flag run = readRun other run := by
  simp only [readRun, Family.read, readGeneric, same]

theorem readRun_ofCanonical (flag : Text) (run : List Text) :
    readRun (Flag.ofCanonical (Flag.canonical flag)) run = readRun flag run :=
  readRun_congr (Flag.canonical_ofCanonical _) run

theorem ofFlag_channel : Family.ofFlag "channel" =
    .choice "Channel" "Chan" Vocabulary.channels := rfl

theorem ofFlag_colorspace :
    Family.ofFlag "colorspace" = .choice "Colorspace" "Space" Vocabulary.colorspaces := rfl

theorem ofFlag_grayscale :
    Family.ofFlag "grayscale" = .toggle "Grayscale" false (some "-colorspace Gray") := rfl

theorem ofFlag_regionClose : Family.ofFlag Flag.regionClose = .channelReset := rfl

/-- What a selection for a single operation is read from. -/
theorem exists_of_readScoped? {tokens : List Text} {reading : Effect × Nat}
    (found : readScoped? tokens = some reading) :
    ∃ flag following effect count, tokens = Family.scopeTarget :: flag :: following ∧
      Token.isFlag flag ∧ (Family.ofFlag (Flag.canonical flag)).isScoped ∧
      (Family.ofFlag (Flag.canonical flag)).read flag (Token.argumentRun following) =
        some (effect, count) ∧
      (following.drop count).head? = some Flag.regionClose ∧ reading = (effect, count + 3) := by
  unfold readScoped? at found
  split at found
  · next target flag following =>
      dsimp only at found
      split at found
      · next conditions =>
          obtain ⟨rfl, isFlag, isScoped⟩ := conditions
          split at found
          · next effect count read =>
              split at found
              · next closes =>
                  exact ⟨flag, following, effect, count, rfl, isFlag, isScoped, read, closes,
                    (Option.some.inj found).symm⟩
              · simp at found
          · simp at found
      · simp at found
  · simp at found

/-- An operation that gets a selection of its own has a slot exactly if its family reads it. -/
theorem read_eq_some_iff {flag : Text} (isScoped : (Family.ofFlag (Flag.canonical flag)).isScoped)
    (run : List Text) :
    ((readRun flag run).1.slots ≠ [] →
      (Family.ofFlag (Flag.canonical flag)).read flag run = some (readRun flag run)) ∧
    ((readRun flag run).1.slots = [] →
        (Family.ofFlag (Flag.canonical flag)).read flag run = none) := by
  unfold readRun
  cases family : Family.ofFlag (Flag.canonical flag) with
  | toggle label hasScope command => simp [Family.read]
  | amount range hasScope => cases run <;> simp [Family.read, readGeneric]
  | _ => simp [family, Family.isScoped] at isScoped

end Effect

/-- A flag with arguments. -/
structure Operation where
  flag : Text
  arguments : List Text

namespace Operation

/-- What is made of an operation when it is read. -/
def effect (operation : Operation) : Effect :=
  (Effect.readRun operation.flag operation.arguments).1

/-- Whether an operation is written as it stands after it was read. -/
structure IsSettled (operation : Operation) : Prop where
  writable : Flag.IsWritable operation.flag
  named : Flag.ofCanonical (Flag.canonical operation.flag) = operation.flag
  settles : Effect.Settles operation.flag operation.arguments operation.arguments

end Operation

namespace Effect

/-- Whether an effect is written as a settled operation that plays the same part as the effect. -/
structure SettlesAs (effect : Effect) (operation : Operation) : Prop where
  settled : operation.IsSettled
  written : effect.IsWritten operation.flag operation.arguments
  isOn : effect.isOff = false
  alike : Alike effect operation.effect

theorem areSettled {effects : List Effect} {operations : List Operation}
    (settle : List.Forall₂ SettlesAs effects operations) :
    ∀ operation ∈ operations, operation.IsSettled :=
  forall_of_forall₂ settle fun _ _ settles => settles.settled

theorem settlesAs_effect {operation : Operation}
    (settled : operation.IsSettled) : operation.effect.SettlesAs operation where
  settled := settled
  written := by
    have written := settled.settles.stable
    rwa [settled.named] at written
  isOn := isOff_readRun _ _
  alike := Alike.refl _

/-- The operation that a flag with settled arguments stands for. -/
theorem Settles.settlesAs {flag : Text} {run settled : List Text}
    (settles : Settles flag run settled)
    (writable : Flag.IsWritable (Flag.ofCanonical (Flag.canonical flag)))
    (selectsAll : (readRun flag run).1.SelectsAll ↔ (readRun flag settled).1.SelectsAll) :
    (readRun flag run).1.SettlesAs ⟨Flag.ofCanonical (Flag.canonical flag), settled⟩ where
  settled := {
    writable := writable
    named := by rw [Flag.canonical_ofCanonical]
    settles := {
      plain := settles.plain
      written := by
        rw [readRun_ofCanonical, Flag.canonical_ofCanonical]
        exact settles.stable
      stable := by
        rw [readRun_ofCanonical, Flag.canonical_ofCanonical]
        exact settles.stable
      taken := by
        rw [readRun_ofCanonical]
        exact settles.taken
      valued := Iff.rfl
      count := by
        rw [Flag.canonical_ofCanonical]
        exact (Family.writtenCount_eq_length settles.count).symm } }
  written := settles.written
  isOn := isOff_readRun flag run
  alike := by
    have same : (Operation.effect ⟨Flag.ofCanonical (Flag.canonical flag), settled⟩) =
        (readRun flag settled).1 := by
      rw [Operation.effect, readRun_ofCanonical]
    rw [same]
    have flags : (readRun flag run).1.flag = (readRun flag settled).1.flag := by
      rw [flag_readRun, flag_readRun]
    exact ⟨by rw [flags], by rw [flags], by rw [flags], selectsAll,
      by rw [GetsScope, GetsScope, flags, ne_eq, ne_eq, settles.valued]⟩

/-- The grayscale switch is written as a choice of a colour space. -/
theorem settlesAs_grayscale {flag : Text} (name : Flag.canonical flag = "grayscale".toList)
    (run : List Text) : (readRun flag run).1.SettlesAs ⟨"-colorspace", ["Gray"]⟩ := by
  have read : readRun flag run =
      (⟨"Grayscale", "grayscale", [.number "Active" 1 0 1 1 []]⟩, 0) := by
    rw [readRun, name, ofFlag_grayscale]
    simp only [Family.read, Option.getD_some, name]
  have choice : readRun "-colorspace" ["Gray"] =
      (⟨"Colorspace", "colorspace", [.select "Space" "Gray" Vocabulary.colorspaces]⟩, 1) := rfl
  have plain : ArePlain ["Gray".toList] := by
    simp only [ArePlain, List.forall_mem_singleton]
    decide
  exact {
    settled := {
      writable := ⟨by decide, by decide⟩
      named := by decide
      settles := settles_choice "-colorspace".toList ofFlag_colorspace plain }
    written := by
      rw [IsWritten, read, renderBody]
      simp only [ofFlag_grayscale]
      rfl
    isOn := isOff_readRun flag run
    alike := by
      rw [read, Operation.effect, choice]
      exact {
        isScoped := by simp only [ofFlag_grayscale, ofFlag_colorspace]; rfl
        closes := by decide
        opens := by decide
        selectsAll := by simp [SelectsAll]
        getsScope := by
          simp only [GetsScope, ofFlag_grayscale, ofFlag_colorspace, Family.isScoped,
            Bool.false_eq_true, false_and] } }

/-- A channel selection settles with the channels that it selects. -/
theorem settlesAs_channel (flag : Text) (name : Flag.canonical flag = "channel".toList)
    {run : List Text}
    (plain : ArePlain run) (writable : Flag.IsWritable (Flag.ofCanonical (Flag.canonical flag))) :
    (readRun flag run).1.SettlesAs ⟨Flag.ofCanonical (Flag.canonical flag), run.take 1⟩ ∧
      (run.take 1).length = (Family.ofFlag (Flag.canonical flag)).writtenCount run ∧
      (Family.ofFlag (Flag.canonical flag)).Writes run (run.take 1) := by
  have family : Family.ofFlag (Flag.canonical flag) =
      .choice "Channel" "Chan" Vocabulary.channels := by
    rw [name]
    exact ofFlag_channel
  cases run with
  | nil =>
      have settles : Settles flag [] [] := settles_missing (by rw [family]; rfl)
      exact ⟨settles.settlesAs writable Iff.rfl, settles.count, Family.writes_missing _⟩
  | cons argument rest =>
      have settles := settles_choice flag family plain
      refine ⟨settles.settlesAs writable ?_, settles.count,
        Family.writes_singleton (.inl rfl) (fun _ => rfl) rest⟩
      have read (rest : List Text) : readRun flag (argument :: rest) = readRun flag [argument] := by
        rw [readRun, readRun, family]
        rfl
      rw [read]

theorem exists_settlesAs_ownFlag (flag : Text) {run : List Text} (plain : ArePlain run)
    (writable : Flag.IsWritable (Flag.ofCanonical (Flag.canonical flag)))
    (ownFlag : Flag.canonical flag ≠ "grayscale".toList) :
    ∃ settled, (readRun flag run).1.SettlesAs
      ⟨Flag.ofCanonical (Flag.canonical flag), settled⟩ ∧
      settled.length = (Family.ofFlag (Flag.canonical flag)).writtenCount run ∧
      (Family.ofFlag (Flag.canonical flag)).Writes run settled := by
  by_cases channel : Flag.canonical flag = "channel".toList
  · exact ⟨_, settlesAs_channel flag channel plain writable⟩
  · obtain ⟨settled, settles, writes⟩ := exists_settles plain ownFlag
    refine ⟨settled, settles.settlesAs writable ?_, settles.count, writes⟩
    simp only [SelectsAll, flag_readRun, channel, false_and]

theorem exists_settlesAs {flag : Text} {run : List Text} (plain : ArePlain run)
    (writable : Flag.IsWritable (Flag.ofCanonical (Flag.canonical flag))) :
    ∃ operation, (readRun flag run).1.SettlesAs operation := by
  by_cases grayscale : Flag.canonical flag = "grayscale".toList
  · exact ⟨_, settlesAs_grayscale grayscale run⟩
  · obtain ⟨settled, settles, -⟩ := exists_settlesAs_ownFlag flag plain writable grayscale
    exact ⟨_, settles⟩

end Effect

end Retouch
