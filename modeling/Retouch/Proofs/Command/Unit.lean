import Mathlib.Data.List.TakeWhile
import Retouch.Command.Validation
import Retouch.Proofs.Command.Cutting
import Retouch.Proofs.Command.Tokenization

/-!
# Units of a command

A unit is a part of a command that the engine can take as it stands: a group delimiter, an allowed
flag without a rule, or an allowed flag with the arguments that its rule asks for. Units are
described here by what they are, without reading tokens from left to right. Validation is tied to
them block by block: a block that is kept is a unit, the blocks partition the tokens, and so the
command that remains is made of whole units.
-/

namespace Retouch

namespace Flag.Rule

/-- Whether a list of arguments has an allowed first word, if the rule limits it. -/
def AllowsFirst (rule : Rule) (arguments : List Text) : Prop :=
  ∀ allowed ∈ rule.firstValues, ∀ first ∈ arguments.head?,
    (if rule.cutsSuffix then Text.before ':' first else first) ∈ allowed

/-- Whether a text begins with digits, an x and more digits. -/
def BeginsWithDimensions (text : Text) : Prop :=
  ∃ width height rest : Text, width ≠ [] ∧ height ≠ [] ∧
    (∀ c ∈ width, Text.isDigit c) ∧
    (∀ c ∈ height, Text.isDigit c) ∧ text = width ++ 'x' :: height ++ rest

/-- Whether a list of arguments has an allowed second word, if the rule limits it. A quoted literal
and a word that begins with its dimensions are always allowed. -/
def AllowsSecond (rule : Rule) (arguments : List Text) : Prop :=
  ∀ allowed ∈ rule.secondValues, ∀ second ∈ arguments[1]?,
    (∃ c ∈ second.head?, c = '\x27' ∨ c = '\x22') ∨ BeginsWithDimensions second ∨
      Text.before ':' second ∈ allowed

end Flag.Rule

/-- Tokens that stand for one operation or one group delimiter. -/
inductive IsUnit : List Text → Prop where
  | group {token : Text} (delimiter : Token.isGroup token) : IsUnit [token]
  | bare {flag : Text} (isFlag : Token.isFlag flag) (isAllowed : flag ∈ Flag.allowed)
      (unruled : ∀ rule ∈ Flag.rules, rule.flag ≠ flag) : IsUnit [flag]
  /-- An allowed flag with as many arguments as its rule asks for. -/
  | ruled {rule : Flag.Rule} {arguments : List Text} (isFlag : Token.isFlag rule.flag)
      (isAllowed : rule.flag ∈ Flag.allowed) (isRule : rule ∈ Flag.rules)
      (arity : arguments.length = rule.arity)
      (plain : ∀ argument ∈ arguments, ¬Token.isFlag argument ∧ ¬Token.isGroup argument)
      (first : rule.AllowsFirst arguments) (second : rule.AllowsSecond arguments) :
      IsUnit (rule.flag :: arguments)

namespace Validation

theorem beginsWithSize_iff {text : Text} :
    beginsWithSize text = true ↔ Flag.Rule.BeginsWithDimensions text := by
  constructor
  · intro sized
    simp only [beginsWithSize, Bool.and_eq_true, Bool.not_eq_true', List.isEmpty_eq_false_iff]
      at sized
    obtain ⟨width_ne, following⟩ := sized
    split at following
    · next c rest dropped =>
        refine ⟨text.takeWhile Text.isDigit, [c], rest, width_ne, by simp, ?_,
          by simpa using following, ?_⟩
        · intro digit member
          exact List.mem_takeWhile_imp member
        · have parts := List.takeWhile_append_dropWhile (p := Text.isDigit) (l := text)
          rw [dropped] at parts
          simpa using parts.symm
    · simp at following
  · rintro ⟨width, height, rest, width_ne, height_ne, widthDigits, heightDigits, rfl⟩
    have notDigit : Text.isDigit 'x' = false := by decide
    cases height with
    | nil => exact absurd rfl height_ne
    | cons c height =>
        have isDigit : Text.isDigit c := heightDigits c (by simp)
        simp [beginsWithSize, List.takeWhile_append_of_pos widthDigits,
          List.dropWhile_append_of_pos widthDigits, notDigit, width_ne, isDigit]

theorem isCustomKernel_iff {argument : Text} :
    isCustomKernel argument = true ↔
      (∃ c ∈ argument.head?, c = '\x27' ∨ c = '\x22') ∨
        Flag.Rule.BeginsWithDimensions argument := by
  rw [isCustomKernel, Bool.or_eq_true, beginsWithSize_iff]
  cases argument <;> simp [Token.isQuote]

theorem firstFault?_eq_none_iff {rule : Flag.Rule} {arguments : List Text} :
    firstFault? rule arguments = none ↔ rule.AllowsFirst arguments := by
  unfold firstFault? Flag.Rule.AllowsFirst checkedPart
  cases rule.firstValues <;> cases arguments <;> simp

theorem secondFault?_eq_none_iff {rule : Flag.Rule} {arguments : List Text} :
    secondFault? rule arguments = none ↔ rule.AllowsSecond arguments := by
  unfold secondFault? Flag.Rule.AllowsSecond
  cases rule.secondValues with
  | none => simp
  | some allowed =>
      rcases arguments with _ | ⟨first, _ | ⟨second, rest⟩⟩
      · simp
      · simp
      · simp only [ite_eq_left_iff, Bool.or_eq_true, isCustomKernel_iff, List.contains_iff_mem,
          reduceCtorEq, imp_false, not_not, Option.mem_some_iff, forall_eq',
            List.getElem?_cons_succ,
          List.getElem?_cons_zero, or_assoc]

/-- The arguments of a flag are in order exactly if both checks of its rule pass. -/
theorem fault?_eq_none_iff {rule : Flag.Rule} {arguments : List Text} :
    fault? rule arguments = none ↔ rule.AllowsFirst arguments ∧
      rule.AllowsSecond arguments := by
  rw [fault?, Option.or_eq_none_iff, firstFault?_eq_none_iff, secondFault?_eq_none_iff]

end Validation

namespace Flag

theorem mem_rules_of_rule? {flag : Text} {rule : Rule} (found : rule? flag = some rule) :
    rule ∈ rules ∧ rule.flag = flag := by
  refine ⟨List.mem_of_find?_eq_some found, ?_⟩
  simpa using List.find?_some found

theorem rule?_eq_none_iff {flag : Text} :
    rule? flag = none ↔ ∀ rule ∈ rules, rule.flag ≠ flag := by
  simp [rule?, List.find?_eq_none]

end Flag

namespace Validation

/-- A block consists of a token and the first of the arguments that follow it. -/
theorem judge_tokens (token : Text) (run : List Text) :
    ∃ count, (judge token run).tokens = token :: run.take count := by
  unfold judge
  split
  · exact ⟨0, rfl⟩
  · split
    · exact ⟨0, rfl⟩
    · split
      · exact ⟨run.length, by simp⟩
      · cases found : Flag.rule? token with
        | none => exact ⟨0, rfl⟩
        | some rule =>
            obtain ⟨-, rfl⟩ := Flag.mem_rules_of_rule? found
            simp only [judgeRuled]
            split
            · exact ⟨run.length, by simp⟩
            · split <;> exact ⟨rule.arity, rfl⟩

theorem cuts_blocks : Cuts blocks (fun token rest => judge token (Token.argumentRun rest))
    Block.tokens where
  nil := by rw [blocks]
  cons token rest := by rw [blocks]
  starts token rest := by
    obtain ⟨count, taken⟩ := judge_tokens token (Token.argumentRun rest)
    exact ⟨_, taken, (List.take_prefix _ _).trans (List.takeWhile_prefix _)⟩

/-- The blocks partition the tokens. -/
theorem flatMap_tokens_blocks (tokens : List Text) :
    (blocks tokens).flatMap Block.tokens = tokens :=
  cuts_blocks.flatMap_tokens tokens

theorem isArgument_iff {token : Text} :
    Token.isArgument token = true ↔ ¬Token.isFlag token ∧ ¬Token.isGroup token := by
  simp [Token.isArgument, and_comm]

theorem isUnit_of_judgeRuled_kept {rule : Flag.Rule} {run : List Text}
    (isFlag : Token.isFlag rule.flag) (isAllowed : rule.flag ∈ Flag.allowed)
    (isRule : rule ∈ Flag.rules) (plain : ∀ argument ∈ run, Token.isArgument argument)
    (kept : (judgeRuled rule run).verdict = .kept) : IsUnit (judgeRuled rule run).tokens := by
  unfold judgeRuled at kept ⊢
  split at kept
  · simp at kept
  · next enough =>
      rw [if_neg enough]
      cases fault : fault? rule (run.take rule.arity) with
      | some reason => simp [fault] at kept
      | none =>
          obtain ⟨first, second⟩ := fault?_eq_none_iff.mp fault
          simp only [fault]
          refine .ruled isFlag isAllowed isRule ?_ ?_ first second
          · rw [List.length_take]
            omega
          · intro argument member
            exact isArgument_iff.mp (plain argument (List.mem_of_mem_take member))

/-- A block that is kept is a unit. -/
theorem isUnit_of_judge_kept {token : Text} {run : List Text}
    (plain : ∀ argument ∈ run, Token.isArgument argument)
    (kept : (judge token run).verdict = .kept) : IsUnit (judge token run).tokens := by
  unfold judge at kept ⊢
  split
  · next delimiter => exact .group delimiter
  · next notGroup =>
      rw [if_neg notGroup] at kept
      split
      · next stray => simp [stray] at kept
      · next isFlag =>
          rw [if_neg isFlag] at kept
          split
          · next unknown => simp [unknown] at kept
          · next isAllowed =>
              rw [if_neg isAllowed] at kept
              simp only [Bool.not_eq_true', Bool.not_eq_false] at isFlag isAllowed
              replace isAllowed : token ∈ Flag.allowed := List.contains_iff_mem.mp isAllowed
              cases found : Flag.rule? token with
              | none => exact .bare isFlag isAllowed (Flag.rule?_eq_none_iff.mp found)
              | some rule =>
                  obtain ⟨isRule, rfl⟩ := Flag.mem_rules_of_rule? found
                  rw [found] at kept
                  exact isUnit_of_judgeRuled_kept isFlag isAllowed isRule plain kept

/-- Every block of a token list that is kept is a unit. -/
theorem isUnit_of_mem_blocks {tokens : List Text} {block : Block} (member : block ∈ blocks tokens)
    (kept : block.verdict = .kept) : IsUnit block.tokens := by
  induction tokens using blocks.induct with
  | case1 => simp [blocks] at member
  | case2 token rest first ih =>
      rw [blocks] at member
      rcases List.mem_cons.mp member with rfl | later
      · refine isUnit_of_judge_kept (fun argument argumentMem => ?_) kept
        exact List.mem_takeWhile_imp argumentMem
      · exact ih later

/-- What the blocks keep is part of their tokens, in order. -/
theorem flatMap_kept_sublist (blocks : List Block) :
    (blocks.flatMap Block.kept).Sublist (blocks.flatMap Block.tokens) := by
  induction blocks with
  | nil => simp
  | cons block rest ih =>
      rw [List.flatMap_cons, List.flatMap_cons]
      refine List.Sublist.append ?_ ih
      unfold Block.kept
      split
      · exact List.Sublist.refl _
      · exact List.nil_sublist _

/-- The units of a token list: the tokens of the blocks that are kept. -/
def units (tokens : List Text) : List (List Text) :=
  ((blocks tokens).filter fun block => block.verdict = .kept).map Block.tokens

theorem flatten_units (tokens : List Text) :
    (units tokens).flatten = (blocks tokens).flatMap Block.kept := by
  unfold units
  induction blocks tokens with
  | nil => rfl
  | cons block rest ih =>
      rw [List.flatMap_cons, ← ih, List.filter_cons]
      cases verdict : block.verdict <;> simp [Block.kept, verdict]

theorem isUnit_of_mem_units {tokens unit : List Text} (member : unit ∈ units tokens) :
    IsUnit unit := by
  obtain ⟨block, filtered, rfl⟩ := List.mem_map.mp member
  obtain ⟨blockMem, kept⟩ := List.mem_filter.mp filtered
  exact isUnit_of_mem_blocks blockMem (by simpa using kept)

theorem flatten_units_sublist (tokens : List Text) : (units tokens).flatten.Sublist tokens := by
  have sublist := flatMap_kept_sublist (blocks tokens)
  rwa [← flatten_units, flatMap_tokens_blocks] at sublist

/-- The command that remains of a text joins the units of its tokens. -/
theorem command_ofText (text : Text) :
    (ofText text).command =
      Text.unwords (units (Token.ofText (Cleanup.forValidation text))).flatten := by
  rw [flatten_units]
  rfl

end Validation

theorem Token.isFlag_eq_false_of_isGroup {token : Text} (delimiter : Token.isGroup token) :
    Token.isFlag token = false := by
  rcases Token.isGroup_iff.mp delimiter with rfl | rfl <;> decide

/-- A flag in a unit is its first token and is allowed. -/
theorem IsUnit.flag_allowed {unit : List Text} (isUnit : IsUnit unit) {token : Text}
    (member : token ∈ unit) (isFlag : Token.isFlag token) : token ∈ Flag.allowed := by
  cases isUnit with
  | group delimiter =>
      obtain rfl := List.mem_singleton.mp member
      exact absurd isFlag (by simp [Token.isFlag_eq_false_of_isGroup delimiter])
  | bare _ isAllowed _ =>
      obtain rfl := List.mem_singleton.mp member
      exact isAllowed
  | ruled _ isAllowed _ _ plain _ _ =>
      rcases List.mem_cons.mp member with rfl | isArgument
      · exact isAllowed
      · exact absurd isFlag (plain token isArgument).1

namespace Flag

theorem rule?_flag {rule : Rule} (isRule : rule ∈ rules) : rule? rule.flag = some rule := by
  have distinct : ∀ rule ∈ rules, rule? rule.flag = some rule := by decide +kernel
  exact distinct rule isRule

end Flag

/-- A unit begins with a flag or a group delimiter, and only arguments follow. -/
theorem IsUnit.exists_cons {unit : List Text} (isUnit : IsUnit unit) :
    ∃ token arguments, unit = token :: arguments ∧ Token.isArgument token = false ∧
      ∀ argument ∈ arguments, Token.isArgument argument := by
  cases isUnit with
  | @group token delimiter =>
      exact ⟨token, [], rfl, by simp [Token.isArgument, delimiter], by simp⟩
  | @bare flag isFlag _ _ => exact ⟨flag, [], rfl, by simp [Token.isArgument, isFlag], by simp⟩
  | @ruled rule arguments isFlag _ _ _ plain _ _ =>
      refine ⟨rule.flag, arguments, rfl, by simp [Token.isArgument, isFlag], ?_⟩
      intro argument member
      exact Validation.isArgument_iff.mpr (plain argument member)

/-- Units begin with no argument. -/
theorem isArgument_head?_units {units : List (List Text)}
    (areUnits : ∀ unit ∈ units, IsUnit unit) :
    ∀ token ∈ units.flatten.head?, Token.isArgument token = false := by
  intro token member
  cases units with
  | nil => simp at member
  | cons unit units =>
      obtain ⟨head, arguments, rfl, notArgument, -⟩ := (areUnits unit (by simp)).exists_cons
      obtain rfl : head = token := by simpa using member
      exact notArgument

/-- A unit is kept when nothing but its own arguments follows it. -/
theorem IsUnit.judge_eq {token : Text} {arguments : List Text}
    (isUnit : IsUnit (token :: arguments)) :
    Validation.judge token arguments = ⟨token :: arguments, .kept⟩ := by
  have notGroup {flag : Text} (isFlag : Token.isFlag flag) : Token.isGroup flag = false := by
    by_contra delimiter
    simp [Token.isFlag_eq_false_of_isGroup (by simpa using delimiter)] at isFlag
  unfold Validation.judge
  cases isUnit with
  | group delimiter => rw [if_pos delimiter]
  | bare isFlag isAllowed unruled =>
      simp [notGroup isFlag, isFlag, Flag.isAllowed, isAllowed, Flag.rule?_eq_none_iff.mpr unruled]
  | @ruled rule _ isFlag isAllowed isRule arity plain first second =>
      have noFault : Validation.fault? rule arguments = none :=
        Validation.fault?_eq_none_iff.mpr ⟨first, second⟩
      have taken : arguments.take rule.arity = arguments := List.take_of_length_le arity.le
      simp [notGroup isFlag, isFlag, Flag.isAllowed, isAllowed, Flag.rule?_flag isRule,
        Validation.judgeRuled, arity, taken, noFault]

namespace Validation

/-- Whole units are kept as they stand, one block for each. -/
theorem blocks_flatten {units : List (List Text)} (areUnits : ∀ unit ∈ units, IsUnit unit) :
    blocks units.flatten = units.map fun unit => ⟨unit, .kept⟩ := by
  induction units with
  | nil => rw [List.flatten_nil, blocks, List.map_nil]
  | cons unit units ih =>
      have isUnit : IsUnit unit := areUnits unit (by simp)
      have others : ∀ other ∈ units, IsUnit other := fun other member =>
        areUnits other (List.mem_cons_of_mem _ member)
      obtain ⟨token, arguments, rfl, -, plain⟩ := isUnit.exists_cons
      have stop := isArgument_head?_units others
      have first : judge token (Token.argumentRun (arguments ++ units.flatten)) =
          ⟨token :: arguments, .kept⟩ := by
        rw [Token.argumentRun_append plain stop, isUnit.judge_eq]
      rw [List.flatten_cons, List.cons_append, blocks, first, List.map_cons]
      simp [ih others]

/-- A text whose tokens make up whole units is accepted in full. -/
theorem ofBlocks_blocks_flatten {units : List (List Text)}
    (areUnits : ∀ unit ∈ units, IsUnit unit) :
    ofBlocks (blocks units.flatten) = ⟨Text.unwords units.flatten, []⟩ := by
  have kept : (units.map fun unit => (⟨unit, .kept⟩ : Block)).flatMap Block.kept =
      units.flatten := by
    rw [List.flatMap_map]
    exact List.flatMap_id
  have reasons :
      (units.map fun unit => (⟨unit, .kept⟩ : Block)).filterMap Block.reason? = [] := by
    rw [List.filterMap_map, List.filterMap_eq_nil_iff]
    exact fun _ _ => rfl
  rw [blocks_flatten areUnits, ofBlocks, kept, reasons, List.map_nil]

end Validation

/-- The command that remains of a text joins tokens of the cleaned text, in their order, that make
up whole units; no flag outside the allow-list is among them. -/
theorem Validation.ofText_sound (text : Text) :
    ∃ units : List (List Text), (∀ unit ∈ units, IsUnit unit) ∧
      (Validation.ofText text).command = Text.unwords units.flatten ∧
      units.flatten.Sublist (Token.ofText (Cleanup.forValidation text)) ∧
      ∀ token ∈ units.flatten, Token.isFlag token → token ∈ Flag.allowed := by
  refine ⟨Validation.units (Token.ofText (Cleanup.forValidation text)), ?_, ?_, ?_, ?_⟩
  · intro unit member
    exact Validation.isUnit_of_mem_units member
  · exact Validation.command_ofText text
  · exact Validation.flatten_units_sublist _
  · intro token member isFlag
    obtain ⟨unit, unitMem, inUnit⟩ := List.mem_flatten.mp member
    exact (Validation.isUnit_of_mem_units unitMem).flag_allowed inUnit isFlag

end Retouch
