import Retouch.Proofs.Effect.Rereading

/-!
# Reading and writing commands

A command that is read into effects can always be written again. Writing what was read is stable:
reading and writing the result once more gives the same text. This holds of every command whose
flags are read as they are written and in which no selection of all colour channels for a single
operation stands inside another selection. With such a selection the second result is shorter than
the first.
-/

namespace Retouch.Effect

open Operation

/-- The operation of a selection is made of its flag with the arguments behind it. -/
theorem exists_readRun_of_readScoped? {rest : List Text} {reading : Effect × Nat}
    (found : readScoped? rest = some reading) :
    ∃ target flag following, rest = target :: flag :: following ∧ Token.isFlag flag ∧
      reading.1 = (readRun flag (Token.argumentRun following)).1 := by
  obtain ⟨flag, following, effect, count, tokens, isFlag, -, read, -, rfl⟩ :=
    exists_of_readScoped? found
  refine ⟨Family.scopeTarget, flag, following, tokens, isFlag, ?_⟩
  rw [readRun, read]
  rfl

/-- Every effect was made of a flag among the tokens, with a run of arguments. -/
theorem exists_readRun_of_mem {tokens : List Text} (nonempty : ∀ token ∈ tokens, token ≠ [])
    {effect : Effect} (member : effect ∈ ofTokens tokens) :
    ∃ flag run, flag ∈ tokens ∧ Token.isFlag flag ∧ ArePlain run ∧
      effect = (readRun flag run).1 := by
  have plain {rest : List Text} (nonempty : ∀ token ∈ rest, token ≠ []) :
      ArePlain (Token.argumentRun rest) := fun argument argumentMem =>
    ⟨nonempty argument ((List.takeWhile_prefix _).subset argumentMem),
      List.mem_takeWhile_imp argumentMem⟩
  induction tokens using ofTokens.induct with
  | case1 => simp [ofTokens] at member
  | case2 token rest isFlag ih =>
      have nonemptyRest : ∀ other ∈ rest, other ≠ [] := fun other otherMem =>
        nonempty other (List.mem_cons_of_mem _ otherMem)
      rw [ofTokens, if_pos isFlag] at member
      rcases List.mem_cons.mp member with rfl | later
      · have single : ∃ flag run, flag ∈ token :: rest ∧ Token.isFlag flag ∧
            ArePlain run ∧
            (readFlag token rest).1 = (readRun flag run).1 :=
          ⟨token, _, by simp, isFlag, plain nonemptyRest, rfl⟩
        unfold readFirst
        split
        · cases found : readScoped? rest with
          | none => exact single
          | some reading =>
              obtain ⟨target, flag, following, rfl, isFlagScoped, same⟩ :=
                exists_readRun_of_readScoped? found
              exact ⟨flag, _, by simp, isFlagScoped,
                plain fun other otherMem => nonemptyRest other (by simp [otherMem]), same⟩
        · exact single
      · obtain ⟨flag, run, flagMem, rest⟩ :=
          ih (fun other otherMem => nonemptyRest other (List.mem_of_mem_drop otherMem)) later
        exact ⟨flag, run, List.mem_cons_of_mem _ (List.mem_of_mem_drop flagMem), rest⟩
  | case3 token rest notFlag ih =>
      rw [ofTokens, if_neg notFlag] at member
      obtain ⟨flag, run, flagMem, others⟩ :=
        ih (fun other otherMem => nonempty other (List.mem_cons_of_mem _ otherMem)) member
      exact ⟨flag, run, List.mem_cons_of_mem _ flagMem, others⟩

theorem exists_readRun_of_mem_ofCommand {text : Text} {effect : Effect}
    (member : effect ∈ ofCommand text) :
    ∃ flag run, ArePlain run ∧ effect = (readRun flag run).1 := by
  obtain ⟨flag, run, -, -, read⟩ :=
    exists_readRun_of_mem (fun _ => Literal.ne_nil_of_mem_splitFrom) member
  exact ⟨flag, run, read⟩

/-- What was read can be written, and where its flag is read as it is written, so is the one that it
is written with. -/
theorem exists_rendersAs (flag : Text) {run : List Text} (plain : ArePlain run) :
    ∃ operation, (readRun flag run).1.RendersAs operation ∧
      (Literal.IsBare (Flag.ofCanonical (readRun flag run).1.flag) →
          Literal.IsBare operation.flag) := by
  by_cases grayscale : Flag.canonical flag = "grayscale".toList
  · exact ⟨_, (settlesAs_grayscale grayscale run).rendersAs, fun _ => by decide⟩
  · obtain ⟨settled, settles, -⟩ := exists_settles plain grayscale
    have written := settles.written
    rw [← flag_readRun flag run] at written
    exact ⟨_, written.rendersAs (isOff_readRun flag run), id⟩

theorem exists_toCommand {effects : List Effect}
    (read : ∀ effect ∈ effects, ∃ flag run, ArePlain run ∧ effect = (readRun flag run).1) :
    ∃ command, toCommand effects = .ok command := by
  have each : ∀ effect ∈ effects, ∃ operation, effect.RendersAs operation := by
    intro effect member
    obtain ⟨flag, run, plain, rfl⟩ := read effect member
    obtain ⟨operation, renders, -⟩ := exists_rendersAs flag plain
    exact ⟨operation, renders⟩
  obtain ⟨operations, render⟩ := exists_forall₂ each
  exact ⟨_, toCommand_eq_of_rendersAs render⟩

theorem exists_operations {effects : List Effect}
    (read : ∀ effect ∈ effects, ∃ flag run, ArePlain run ∧ effect = (readRun flag run).1)
    (writable : ∀ effect ∈ effects, Flag.IsWritable (Flag.ofCanonical effect.flag)) :
    ∃ operations, List.Forall₂ SettlesAs effects operations := by
  refine exists_forall₂ fun effect member => ?_
  obtain ⟨flag, run, plain, same⟩ := read effect member
  have writableFirst := writable effect member
  rw [same, flag_readRun] at writableFirst
  rw [same]
  exact exists_settlesAs plain writableFirst

theorem beginsScope_iff {first second : List Effect} (alike : List.Forall₂ Alike first second) :
    BeginsScope first ↔ BeginsScope second := by
  constructor
  · rintro ⟨selection, operation, reset, after, rfl, selectsAll, getsScope, closes⟩
    cases alike with
    | cons alike₁ alike => cases alike with
      | cons alike₂ alike => cases alike with
        | cons alike₃ alike =>
            exact ⟨_, _, _, _, rfl, alike₁.selectsAll.mp selectsAll,
              alike₂.getsScope.mp getsScope, alike₃.closes.mp closes⟩
  · rintro ⟨selection, operation, reset, after, rfl, selectsAll, getsScope, closes⟩
    cases alike with
    | cons alike₁ alike => cases alike with
      | cons alike₂ alike => cases alike with
        | cons alike₃ alike =>
            exact ⟨_, _, _, _, rfl, alike₁.selectsAll.mpr selectsAll,
              alike₂.getsScope.mpr getsScope, alike₃.closes.mpr closes⟩

theorem nestsScope_iff {first second : List Effect} (alike : List.Forall₂ Alike first second)
    (scopeOpen : Bool) : NestsScope scopeOpen first ↔ NestsScope scopeOpen second := by
  induction alike generalizing scopeOpen with
  | nil => rfl
  | @cons effect other effects others alikeFirst alikeRest ih =>
      rw [nestsScope_cons, nestsScope_cons, beginsScope_iff (.cons alikeFirst alikeRest),
        alikeFirst.scopeAfter, ih]

/-- What was read from a command is always written, and if its flags are read as they are written,
reading and writing the result again changes nothing exactly if no selection for a single operation
stands inside another one. -/
theorem roundTrip_iff (text : Text) :
    ∃ once, toCommand (ofCommand text) = .ok once ∧
      ((∀ effect ∈ ofCommand text, Flag.IsWritable (Flag.ofCanonical effect.flag)) →
        (toCommand (ofCommand once) = .ok once ↔ ¬NestsScope false (ofCommand text))) := by
  have read (effect : Effect) (member : effect ∈ ofCommand text) :=
    exists_readRun_of_mem_ofCommand member
  obtain ⟨once, rendered⟩ := exists_toCommand read
  refine ⟨once, rendered, fun writable => ?_⟩
  obtain ⟨operations, settle⟩ := exists_operations read writable
  have settled := areSettled settle
  have same : once = Text.unwords (allWords Literal.quote false operations) :=
    Except.ok.inj (rendered.symm.trans (toCommand_eq settle))
  subst same
  obtain ⟨again, rereads, settledAgain, tokens⟩ := exists_rereads settled false
  have second : toCommand (ofCommand (Text.unwords (allWords Literal.quote false operations))) =
      .ok (Text.unwords (allWords Literal.quote false again)) := by
    rw [ofCommand, split_allWords settled, tokens]
    refine toCommand_eq ?_
    rw [List.forall₂_map_left_iff, List.forall₂_same]
    exact fun operation member => settlesAs_effect (settledAgain operation member)
  have alike : List.Forall₂ Alike (ofCommand text) (operations.map Operation.effect) := by
    rw [List.forall₂_map_right_iff]
    exact settle.imp fun _ _ settles => settles.alike
  rw [second, Except.ok.injEq, nestsScope_iff alike]
  constructor
  · intro stable nests
    have words : allWords id false again = allWords id false operations := by
      rw [← split_allWords settledAgain, stable, split_allWords settled]
    -- A selection inside another one is not written again, so the words become fewer and cannot be
    -- the same.
    have shorter := (rereads.length_le id).2 nests
    rw [words] at shorter
    exact lt_irrefl _ shorter
  · intro flat
    rw [rereads.allWords_eq (by decide) flat]

/-- Two operations cannot hold a selection with its end inside another selection. -/
theorem roundTrip_negate_blur :
    ∃ once, toCommand (ofCommand "-channel RGB -negate +channel -blur 0.50") = .ok once ∧
      toCommand (ofCommand once) = .ok once := by
  have flags : (ofCommand "-channel RGB -negate +channel -blur 0.50").map (·.flag) =
      ["negate".toList, "blur".toList] := by
    decide +kernel
  obtain ⟨once, rendered, stable⟩ := roundTrip_iff "-channel RGB -negate +channel -blur 0.50"
  refine ⟨once, rendered, (stable fun effect member => ?_).mpr ?_⟩
  · have flagMem := List.mem_map_of_mem (f := Effect.flag) member
    rw [flags] at flagMem
    simp only [List.mem_cons, List.not_mem_nil, or_false] at flagMem
    rcases flagMem with same | same <;> rw [same] <;>
      exact ⟨by decide, by decide⟩
  · rintro ⟨before, inner, parts, -, selection, operation, reset, after, rfl, -⟩
    have length := congrArg List.length flags
    rw [List.length_map, parts] at length
    simp only [List.length_append, List.length_cons, List.length_nil] at length
    omega

/-- A selection inside another one is lost the second time, and a flag that was quoted is taken
apart. -/
theorem roundTrip_unstable :
    (toCommand (ofCommand "-channel Red -channel RGB -negate x +channel") =
        .ok "-channel Red -channel RGB -negate +channel".toList ∧
      toCommand (ofCommand "-channel Red -channel RGB -negate +channel") =
        .ok "-channel Red -negate".toList) ∧
    (toCommand (ofCommand "'-x  a'") = .ok "-x  a".toList ∧
      toCommand (ofCommand "-x  a") = .ok "-x a".toList) := by
  decide +kernel

end Retouch.Effect
