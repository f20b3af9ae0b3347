import Retouch.Proofs.Command.Unit

/-!
# What validation removes

Validation takes every token of a text into exactly one block and keeps or removes the block as a
whole. The blocks that are kept are the units; the ones that are removed are described here by what
they are and what stands around them, one kind for each reason: a stray token, an unknown flag with
all of its arguments, a flag with too few arguments, and a flag with as many arguments as its rule
asks for of which one is refused. A text of which nothing is removed is therefore made of whole
units, and nothing else is.
-/

namespace Retouch

/-- Whether a token is no argument of a flag in front of it: a flag that only arguments separate
from the token is allowed and has all the arguments that it takes. -/
def Token.IsOutside (front : List Text) : Prop :=
  ∀ earlier flag run, front = earlier ++ flag :: run → Token.isFlag flag →
    (∀ argument ∈ run, Token.isArgument argument) →
      flag ∈ Flag.allowed ∧ Flag.arity flag ≤ run.length

namespace Validation

/-- The reasons for which a rule refuses arguments: the first one is not among the allowed words, or
it is, and the second one is neither a kernel of the user nor among the allowed words. -/
inductive Refuses (rule : Flag.Rule) (arguments : List Text) : Reason → Prop where
  /-- The first argument is not among the words that the rule allows. -/
  | value {allowed : List Text} {first value : Text} (limited : allowed ∈ rule.firstValues)
      (isFirst : first ∈ arguments.head?)
      (isValue : value = if rule.cutsSuffix then Text.before ':' first else first)
      (unknown : value ∉ allowed) :
        Refuses rule arguments (.invalidValue rule.flag arguments value)
  /-- The second argument is no kernel. -/
  | kernel {allowed : List Text} {second : Text} (first : rule.AllowsFirst arguments)
      (limited : allowed ∈ rule.secondValues) (isSecond : second ∈ arguments[1]?)
      (unquoted : ∀ c ∈ second.head?, c ≠ '\x27' ∧ c ≠ '\x22')
      (unsized : ¬Flag.Rule.BeginsWithDimensions second)
        (unknown : Text.before ':' second ∉ allowed) :
      Refuses rule arguments (.invalidKernel rule.flag arguments (Text.before ':' second))

/-- The blocks that are removed for a reason, given the tokens in front of the block and those
behind it. -/
inductive IsRemoval (front following : List Text) : Reason → List Text → Prop where
  /-- An argument that belongs to no flag. -/
  | stray {token : Text} (isArgument : Token.isArgument token)
      (outside : Token.IsOutside front) : IsRemoval front following (.strayToken token) [token]
  /-- A flag that is not allowed, with all the arguments behind it. -/
  | unknown {flag : Text} {run : List Text} (isFlag : Token.isFlag flag)
      (forbidden : flag ∉ Flag.allowed)
      (whole : Token.IsWholeRun run following) :
      IsRemoval front following (.unknownFlag flag run) (flag :: run)
  /-- A flag with all the arguments behind it, which are fewer than its rule asks for. -/
  | missing {rule : Flag.Rule} {run : List Text} (isFlag : Token.isFlag rule.flag)
      (isAllowed : rule.flag ∈ Flag.allowed) (isRule : rule ∈ Flag.rules)
      (whole : Token.IsWholeRun run following) (few : run.length < rule.arity) :
      IsRemoval front following (.missingArguments rule.flag rule.arity run.length)
        (rule.flag :: run)
  /-- A flag with as many arguments as its rule asks for, which the rule refuses. -/
  | refused {rule : Flag.Rule} {arguments : List Text} {reason : Reason}
      (isFlag : Token.isFlag rule.flag)
      (isAllowed : rule.flag ∈ Flag.allowed) (isRule : rule ∈ Flag.rules)
      (plain : ∀ argument ∈ arguments, Token.isArgument argument)
      (arity : arguments.length = rule.arity) (refuses : Refuses rule arguments reason) :
      IsRemoval front following reason (rule.flag :: arguments)

/-! ## Refused arguments -/

theorem firstFault?_eq_some_iff {rule : Flag.Rule} {arguments : List Text} {reason : Reason} :
    firstFault? rule arguments = some reason ↔
      ∃ allowed ∈ rule.firstValues, ∃ first ∈ arguments.head?,
      checkedPart rule first ∉ allowed ∧
        .invalidValue rule.flag arguments (checkedPart rule first) = reason := by
  unfold firstFault?
  cases rule.firstValues <;> cases arguments <;> simp

theorem secondFault?_eq_some_iff {rule : Flag.Rule} {arguments : List Text} {reason : Reason} :
    secondFault? rule arguments = some reason ↔
      ∃ allowed ∈ rule.secondValues, ∃ second ∈ arguments[1]?,
      ¬isCustomKernel second ∧ Text.before ':' second ∉ allowed ∧
        .invalidKernel rule.flag arguments (Text.before ':' second) = reason := by
  unfold secondFault?
  cases rule.secondValues with
  | none => simp
  | some allowed =>
      rcases arguments with _ | ⟨first, _ | ⟨second, rest⟩⟩ <;> simp [and_assoc]

theorem fault?_eq_some_iff {rule : Flag.Rule} {arguments : List Text} {reason : Reason} :
    fault? rule arguments = some reason ↔ Refuses rule arguments reason := by
  rw [fault?, Option.or_eq_some_iff, firstFault?_eq_some_iff, firstFault?_eq_none_iff,
    secondFault?_eq_some_iff]
  constructor
  · rintro (⟨allowed, limited, first, isFirst, unknown, rfl⟩ |
      ⟨first, allowed, limited, second, isSecond, custom, unknown, rfl⟩)
    · exact .value limited isFirst rfl unknown
    · rw [isCustomKernel_iff, not_or] at custom
      refine .kernel first limited isSecond (fun c member => ?_) custom.2 unknown
      exact not_or.mp fun isQuote => custom.1 ⟨c, member, isQuote⟩
  · rintro (⟨limited, isFirst, rfl, unknown⟩ | ⟨first, limited, isSecond, unquoted, unsized,
      unknown⟩)
    · exact .inl ⟨_, limited, _, isFirst, unknown, rfl⟩
    · refine .inr ⟨first, _, limited, _, isSecond, ?_, unknown, rfl⟩
      rw [isCustomKernel_iff, not_or]
      refine ⟨?_, unsized⟩
      rintro ⟨c, member, isQuote⟩
      exact not_or.mpr (unquoted c member) isQuote

/-! ## One block -/

variable {token flag : Text} {rule : Flag.Rule} {run arguments front following : List Text}
    {reason : Reason}

theorem token_cases (token : Text) : Token.isGroup token ∨ Token.isArgument token ∨
    (Token.isFlag token ∧ token ∉ Flag.allowed) ∨
    (Token.isFlag token ∧ token ∈ Flag.allowed ∧
        ∀ rule ∈ Flag.rules, rule.flag ≠ token) ∨
    ∃ rule ∈ Flag.rules, rule.flag = token ∧ Token.isFlag token ∧
      token ∈ Flag.allowed := by
  by_cases isGroup : Token.isGroup token
  · exact .inl isGroup
  by_cases isFlag : Token.isFlag token
  · by_cases isAllowed : token ∈ Flag.allowed
    · by_cases isRuled : ∃ rule ∈ Flag.rules, rule.flag = token
      · rcases isRuled with ⟨rule, isRule, same⟩
        exact .inr (.inr (.inr (.inr ⟨rule, isRule, same, isFlag, isAllowed⟩)))
      · have unruled : ∀ rule ∈ Flag.rules, rule.flag ≠ token := fun rule isRule same =>
          isRuled ⟨rule, isRule, same⟩
        exact .inr (.inr (.inr (.inl ⟨isFlag, isAllowed, unruled⟩)))
    · exact .inr (.inr (.inl ⟨isFlag, isAllowed⟩))
  · exact .inr (.inl (isArgument_iff.mpr ⟨isFlag, isGroup⟩))

theorem isGroup_eq_false_of_isFlag (isFlag : Token.isFlag flag) : Token.isGroup flag = false := by
  by_contra isGroup
  simp [Token.isFlag_eq_false_of_isGroup (by simpa using isGroup)] at isFlag

theorem judge_of_isGroup (isGroup : Token.isGroup token) :
    judge token run = ⟨[token], .kept⟩ := by
  rw [judge, if_pos isGroup]

theorem judge_of_isArgument (isArgument : Token.isArgument token) :
    judge token run = ⟨[token], .removed (.strayToken token)⟩ := by
  rcases isArgument_iff.mp isArgument with ⟨notFlag, notGroup⟩
  simp [judge, notFlag, notGroup]

theorem judge_of_forbidden (isFlag : Token.isFlag flag) (forbidden : flag ∉ Flag.allowed) :
    judge flag run = ⟨flag :: run, .removed (.unknownFlag flag run)⟩ := by
  simp [judge, isGroup_eq_false_of_isFlag isFlag, isFlag, Flag.isAllowed, forbidden]

theorem judge_of_unruled (isFlag : Token.isFlag flag) (isAllowed : flag ∈ Flag.allowed)
    (unruled : ∀ rule ∈ Flag.rules, rule.flag ≠ flag) :
    judge flag run = ⟨[flag], .kept⟩ := by
  simp [judge, isGroup_eq_false_of_isFlag isFlag, isFlag, Flag.isAllowed, isAllowed,
    Flag.rule?_eq_none_iff.mpr unruled]

theorem judge_of_isRule (isFlag : Token.isFlag rule.flag) (isAllowed : rule.flag ∈ Flag.allowed)
    (isRule : rule ∈ Flag.rules) : judge rule.flag run = judgeRuled rule run := by
  simp [judge, isGroup_eq_false_of_isFlag isFlag, isFlag, Flag.isAllowed, isAllowed,
    Flag.rule?_flag isRule]

theorem judgeRuled_of_lt (few : run.length < rule.arity) : judgeRuled rule run =
    ⟨rule.flag :: run, .removed (.missingArguments rule.flag rule.arity run.length)⟩ := by
  rw [judgeRuled, if_pos few]

theorem judgeRuled_of_le (enough : rule.arity ≤ run.length) : judgeRuled rule run =
    ⟨rule.flag :: run.take rule.arity,
        (fault? rule (run.take rule.arity)).elim .kept .removed⟩ := by
  rw [judgeRuled, if_neg (by omega)]
  cases fault : fault? rule (run.take rule.arity) <;> simp only [fault] <;> rfl

/-- A token with arguments is kept exactly if they are a unit, whatever follows them. -/
theorem judge_eq_kept_iff :
    judge token (Token.argumentRun (arguments ++ following)) = ⟨token :: arguments, .kept⟩ ↔
      IsUnit (token :: arguments) := by
  constructor
  · intro isBlock
    have plain : ∀ argument ∈ Token.argumentRun (arguments ++ following),
        Token.isArgument argument :=
      fun argument member => List.mem_takeWhile_imp member
    have isUnit := isUnit_of_judge_kept plain (congrArg Block.verdict isBlock)
    rwa [isBlock] at isUnit
  · intro isUnit
    cases isUnit with
    | group delimiter => exact judge_of_isGroup delimiter
    | bare isFlag isAllowed unruled => exact judge_of_unruled isFlag isAllowed unruled
    | ruled isFlag isAllowed isRule arity plain first second =>
        have areArguments : ∀ argument ∈ arguments, Token.isArgument argument :=
            fun argument member =>
          isArgument_iff.mpr (plain argument member)
        rw [judge_of_isRule isFlag isAllowed isRule, Token.argumentRun_append_of_plain areArguments,
          judgeRuled_of_le (by rw [List.length_append]; omega), ← arity, List.take_left,
          fault?_eq_none_iff.mpr ⟨first, second⟩]
        rfl

/-- A token with arguments is removed exactly if they are a block of the kind of the reason. -/
theorem judge_eq_removed_iff (outside : Token.isArgument token → Token.IsOutside front) :
    judge token (Token.argumentRun (arguments ++ following)) =
      ⟨token :: arguments, .removed reason⟩ ↔
      IsRemoval front following reason (token :: arguments) := by
  constructor
  · intro isBlock
    -- Group delimiters and allowed flags without a rule are always kept.
    rcases token_cases token with
      isGroup | isArgument | ⟨isFlag, forbidden⟩ | ⟨isFlag, isAllowed, unruled⟩ |
      ⟨rule, isRule, rfl, isFlag, isAllowed⟩
    · simp [judge_of_isGroup isGroup] at isBlock
    · rw [judge_of_isArgument isArgument] at isBlock
      cases isBlock
      exact .stray isArgument (outside isArgument)
    · rw [judge_of_forbidden isFlag forbidden] at isBlock
      simp only [Block.mk.injEq, List.cons.injEq, true_and, Verdict.removed.injEq] at isBlock
      rcases isBlock with ⟨isRun, rfl⟩
      rw [isRun]
      exact .unknown isFlag forbidden (Token.argumentRun_append_eq_iff.mp isRun)
    · simp [judge_of_unruled isFlag isAllowed unruled] at isBlock
    · rw [judge_of_isRule isFlag isAllowed isRule] at isBlock
      by_cases few : (Token.argumentRun (arguments ++ following)).length < rule.arity
      · rw [judgeRuled_of_lt few] at isBlock
        simp only [Block.mk.injEq, List.cons.injEq, true_and, Verdict.removed.injEq] at isBlock
        rcases isBlock with ⟨isRun, rfl⟩
        rw [isRun] at few ⊢
        exact .missing isFlag isAllowed isRule (Token.argumentRun_append_eq_iff.mp isRun) few
      · rw [judgeRuled_of_le (by omega)] at isBlock
        simp only [Block.mk.injEq, List.cons.injEq, true_and] at isBlock
        rcases isBlock with ⟨taken, verdict⟩
        rw [taken] at verdict
        have arity : arguments.length = rule.arity := by
          rw [← taken, List.length_take]
          omega
        refine .refused isFlag isAllowed isRule (fun argument member => ?_) arity ?_
        · rw [← taken] at member
          exact List.mem_takeWhile_imp (List.mem_of_mem_take member)
        · rw [← fault?_eq_some_iff]
          cases fault : fault? rule arguments with
          | none => simp [fault] at verdict
          | some found => simpa [fault] using verdict
  · intro isRemoval
    cases isRemoval with
    | stray isArgument _ => exact judge_of_isArgument isArgument
    | unknown isFlag forbidden whole =>
        rw [Token.argumentRun_append_eq_iff.mpr whole]
        exact judge_of_forbidden isFlag forbidden
    | missing isFlag isAllowed isRule whole few =>
        rw [Token.argumentRun_append_eq_iff.mpr whole, judge_of_isRule isFlag isAllowed isRule]
        exact judgeRuled_of_lt few
    | refused isFlag isAllowed isRule plain arity refuses =>
        rw [judge_of_isRule isFlag isAllowed isRule, Token.argumentRun_append_of_plain plain,
          judgeRuled_of_le (by rw [List.length_append]; omega), ← arity, List.take_left,
          fault?_eq_some_iff.mpr refuses]
        rfl

/-! ## All blocks -/

theorem isArgument_of_mem_front (made : (judge token (Token.argumentRun following)).tokens =
    token :: front) :
    ∀ argument ∈ front, Token.isArgument argument := by
  intro argument member
  rcases judge_tokens token (Token.argumentRun following) with ⟨count, taken⟩
  rw [(List.cons.inj (made.symm.trans taken)).2] at member
  exact List.mem_takeWhile_imp (List.mem_of_mem_take member)

/-- A flag that leaves arguments behind is allowed and has as many arguments as it takes. -/
theorem judge_leaves (isFlag : Token.isFlag flag)
    (leaves : (judge flag run).tokens.length ≤ run.length) :
    flag ∈ Flag.allowed ∧ (judge flag run).tokens.length = Flag.arity flag + 1 := by
  rcases token_cases flag with
    isGroup | isArgument | ⟨-, forbidden⟩ | ⟨-, isAllowed, unruled⟩ |
    ⟨rule, isRule, rfl, -, isAllowed⟩
  · simp [Token.isFlag_eq_false_of_isGroup isGroup] at isFlag
  · exact absurd isFlag (isArgument_iff.mp isArgument).1
  · rw [judge_of_forbidden isFlag forbidden, List.length_cons] at leaves
    omega
  · refine ⟨isAllowed, ?_⟩
    rw [judge_of_unruled isFlag isAllowed unruled, Flag.arity, Flag.rule?_eq_none_iff.mpr unruled]
    rfl
  · refine ⟨isAllowed, ?_⟩
    rw [judge_of_isRule isFlag isAllowed isRule] at leaves ⊢
    by_cases few : run.length < rule.arity
    · rw [judgeRuled_of_lt few, List.length_cons] at leaves
      omega
    · rw [judgeRuled_of_le (by omega), Flag.arity, Flag.rule?_flag isRule, List.length_cons,
        List.length_take_of_le (by omega)]
      rfl

/-- A flag that takes only a part of the arguments behind it is allowed, and what it leaves begins
behind as many as it takes. -/
theorem arity_le_of_judge {others : List Text} (isFlag : Token.isFlag flag)
    (plain : ∀ argument ∈ front ++ others, Token.isArgument argument)
    (isArgument : Token.isArgument token)
    (made : (judge flag (Token.argumentRun (front ++ others ++ [token] ++ following))).tokens =
        flag :: front) :
    flag ∈ Flag.allowed ∧ Flag.arity flag ≤ (front ++ others).length := by
  have areArguments : ∀ argument ∈ front ++ others ++ [token], Token.isArgument argument := by
    intro argument member
    rcases List.mem_append.mp member with inRun | isToken
    · exact plain argument inRun
    · rwa [List.mem_singleton.mp isToken]
  rw [Token.argumentRun_append_of_plain areArguments] at made
  have leaves := judge_leaves isFlag (by rw [made]; simp; omega)
  rw [made, List.length_cons] at leaves
  refine ⟨leaves.1, ?_⟩
  rw [List.length_append]
  omega

/-- A block that begins with an argument stands outside of the arguments of every flag. -/
theorem isOutside_of_blocks {tokens : List Text} {before after : List Block} {block : Block}
    (parts : blocks tokens = before ++ block :: after)
    (isArgument : ∀ token ∈ block.tokens.head?, Token.isArgument token) :
    Token.IsOutside (before.flatMap Block.tokens) := by
  induction before generalizing tokens with
  | nil =>
      intro earlier flag run isFront
      simp at isFront
  | cons part before ih =>
      rw [List.cons_append] at parts
      rcases cuts_blocks.exists_of_cons parts with ⟨token, front, made, isPart, others⟩
      have later := ih others
      intro earlier flag run isFront isFlag plain
      rw [List.flatMap_cons, made, List.cons_append] at isFront
      cases earlier with
      | cons first earlier =>
          rcases List.append_eq_append_iff.mp (List.cons.inj isFront).2 with
            ⟨middle, -, inLater⟩ | ⟨middle, inFront, following⟩
          · exact later middle flag run inLater isFlag plain
          · cases middle with
            | nil => exact later [] flag run following.symm isFlag plain
            | cons other middle =>
                rcases List.cons.inj following with ⟨rfl, -⟩
                have isArgument : Token.isArgument flag := by
                  rw [isPart] at made
                  exact isArgument_of_mem_front made flag (by simp [inFront])
                exact absurd isFlag (isArgument_iff.mp isArgument).1
      | nil =>
          rcases List.cons.inj isFront with ⟨rfl, rfl⟩
          rcases cuts_blocks.exists_piece others with ⟨start, rest, isBlock, -⟩
          have isRun : front ++ (before ++ block :: after).flatMap Block.tokens =
              front ++ before.flatMap Block.tokens ++ [start] ++
                  (rest ++ after.flatMap Block.tokens) := by
            simp [isBlock]
          rw [isPart, isRun] at made
          exact arity_le_of_judge isFlag plain (isArgument start (by simp [isBlock])) made

variable {tokens : List Text} {before after : List Block} {block : Block}

/-- A block is kept exactly if it is a unit, and removed for a reason exactly if it is a block of
that kind. -/
theorem verdict_iff (parts : blocks tokens = before ++ block :: after) :
    (block.verdict = .kept ↔ IsUnit block.tokens) ∧
      ∀ reason, block.verdict = .removed reason ↔
        IsRemoval (before.flatMap Block.tokens)
          (after.flatMap Block.tokens) reason block.tokens := by
  rcases cuts_blocks.exists_piece parts with ⟨token, front, made, isPiece⟩
  have outside : Token.isArgument token → Token.IsOutside (before.flatMap Block.tokens) := by
    intro isArgument
    apply isOutside_of_blocks parts
    simpa [made] using isArgument
  have isVerdict (verdict : Verdict) : block.verdict = verdict ↔
      judge token (Token.argumentRun (front ++ after.flatMap Block.tokens)) =
          ⟨token :: front, verdict⟩ := by
    rw [← isPiece]
    cases block
    simpa using fun _ => made
  rw [made]
  constructor
  · rw [isVerdict, judge_eq_kept_iff]
  · intro reason
    rw [isVerdict, judge_eq_removed_iff outside]

theorem stripped_eq_nil_iff (parts : List Block) :
    (ofBlocks parts).stripped = [] ↔ ∀ block ∈ parts, block.verdict = .kept := by
  rw [ofBlocks, List.map_eq_nil_iff, List.filterMap_eq_nil_iff]
  refine forall₂_congr fun block _ => ?_
  cases verdict : block.verdict <;> simp [Block.reason?, verdict]

/-- Nothing is removed of a text exactly if its tokens make up whole units, and then its command
joins all of them. -/
theorem ofText_accepts (text : Text) :
    ((ofText text).stripped = [] ↔
      ∃ units : List (List Text), (∀ unit ∈ units, IsUnit unit) ∧
        Token.ofText (Cleanup.forValidation text) = units.flatten) ∧
    ((ofText text).stripped = [] →
      (ofText text).command = Text.unwords (Token.ofText (Cleanup.forValidation text))) := by
  have kept_of_accepted : (ofText text).stripped = [] → ∃ units : List (List Text),
      (∀ unit ∈ units, IsUnit unit) ∧
          Token.ofText (Cleanup.forValidation text) = units.flatten := by
    intro accepted
    refine ⟨(blocks (Token.ofText (Cleanup.forValidation text))).map Block.tokens, ?_, ?_⟩
    · intro unit member
      rcases List.mem_map.mp member with ⟨block, inBlocks, rfl⟩
      exact isUnit_of_mem_blocks inBlocks ((stripped_eq_nil_iff _).mp accepted block inBlocks)
    · exact (flatMap_tokens_blocks _).symm
  refine ⟨⟨kept_of_accepted, ?_⟩, ?_⟩
  · rintro ⟨units, areUnits, isText⟩
    rw [ofText, isText, ofBlocks_blocks_flatten areUnits]
  · intro accepted
    rcases kept_of_accepted accepted with ⟨units, areUnits, isText⟩
    rw [ofText, isText, ofBlocks_blocks_flatten areUnits]

/-- Validation accounts for every token of a text: the tokens are consecutive blocks, each of which
goes to the command or is removed as a whole for one reason. A block is removed exactly if it is of
the kind of its reason, no flag and no group delimiter goes with the block of another, and what
follows a block is judged with the block in front of it as without. -/
theorem ofText_accounts (text : Text) :
    ∃ parts : List Block,
      parts.flatMap Block.tokens = Token.ofText (Cleanup.forValidation text) ∧
      (ofText text).command = Text.unwords (parts.flatMap Block.kept) ∧
      (ofText text).stripped = (parts.filterMap Block.reason?).map Reason.message ∧
      ∀ before block after, parts = before ++ block :: after →
        (block.verdict = .kept ↔ IsUnit block.tokens) ∧
        (∀ reason, block.verdict = .removed reason ↔
          IsRemoval (before.flatMap Block.tokens)
            (after.flatMap Block.tokens) reason block.tokens) ∧
        (∀ token ∈ block.tokens.tail, ¬Token.isFlag token ∧ ¬Token.isGroup token) ∧
        blocks (block.tokens ++ after.flatMap Block.tokens) = block :: after ∧
        blocks (after.flatMap Block.tokens) = after := by
  refine ⟨blocks (Token.ofText (Cleanup.forValidation text)), flatMap_tokens_blocks _,
    rfl, rfl, ?_⟩
  intro before block after parts
  have verdict := verdict_iff parts
  have following : blocks (Token.ofText (Cleanup.forValidation text)) =
      (before ++ [block]) ++ after := by
    simpa using parts
  refine ⟨verdict.1, verdict.2, ?_, ?_, cuts_blocks.cut_flatMap_of_append following⟩
  · intro token member
    rcases cuts_blocks.exists_piece parts with ⟨first, front, made, isPiece⟩
    rw [made, List.tail_cons] at member
    rw [isPiece] at made
    exact isArgument_iff.mp (isArgument_of_mem_front made token member)
  · exact cuts_blocks.cut_flatMap_of_append parts

/-! ## A block less -/

/-- The reasons for which a flag takes along all the arguments that it finds. -/
inductive Reason.TakesRun : Reason → Prop where
  | unknownFlag (flag : Text) (run : List Text) : TakesRun (.unknownFlag flag run)
  | missingArguments (flag : Text) (needed got : Nat) : TakesRun (.missingArguments flag needed got)

theorem IsRemoval.stop (isRemoval : IsRemoval front following reason run)
    (takesRun : reason.TakesRun) :
    ∀ next ∈ following.head?, Token.isArgument next = false := by
  cases isRemoval with
  | stray => nomatch takesRun
  | unknown _ _ whole => exact whole.stop
  | missing _ _ _ whole _ => exact whole.stop
  | refused _ _ _ _ _ refuses => cases refuses <;> nomatch takesRun

/-- What stands behind a block matters to it only if it takes along all the arguments that it
finds. -/
theorem judge_append_congr {verdict : Verdict} {other : List Text}
    (isBlock : judge token (Token.argumentRun (arguments ++ following)) =
        ⟨token :: arguments, verdict⟩)
    (stop : ∀ reason, verdict = .removed reason → reason.TakesRun →
      ∀ next ∈ other.head?, Token.isArgument next = false) :
    judge token (Token.argumentRun (arguments ++ other)) = ⟨token :: arguments, verdict⟩ := by
  have outside : Token.IsOutside [] := by
    intro earlier flag run isFront
    simp at isFront
  cases verdict with
  | kept => exact judge_eq_kept_iff.mpr (judge_eq_kept_iff.mp isBlock)
  | removed reason =>
      rw [judge_eq_removed_iff fun _ => outside] at isBlock ⊢
      cases isBlock with
      | stray plain _ => exact .stray plain outside
      | unknown isFlag forbidden whole =>
          exact .unknown isFlag forbidden ⟨whole.plain, stop _ rfl (.unknownFlag _ _)⟩
      | missing isFlag isAllowed isRule whole few =>
          exact .missing isFlag isAllowed isRule
            ⟨whole.plain, stop _ rfl (.missingArguments _ _ _)⟩ few
      | refused isFlag isAllowed isRule plain arity refuses =>
          exact .refused isFlag isAllowed isRule plain arity refuses

/-- Taking a block out of a text leaves the other blocks as they are, unless the block in front of
it takes along all the arguments that it finds, and finds one behind the block that is taken out. -/
theorem blocks_without_iff (parts : blocks tokens = before ++ block :: after) :
    blocks (before.flatMap Block.tokens ++ after.flatMap Block.tokens) = before ++ after ↔
      ∀ last ∈ before.getLast?, ∀ reason, last.verdict = .removed reason →
        reason.TakesRun →
        ∀ next ∈ (after.flatMap Block.tokens).head?, Token.isArgument next = false := by
  constructor
  · intro isCut last isLast reason verdict
    rcases List.getLast?_eq_some_iff.mp isLast with ⟨earlier, rfl⟩
    rw [List.append_assoc] at isCut
    exact (((verdict_iff isCut).2 reason).mp verdict).stop
  · intro stop
    induction before generalizing tokens with
    | nil =>
        rcases cuts_blocks.exists_of_cons parts with ⟨-, -, -, -, isAfter⟩
        exact isAfter
    | cons part before ih =>
        rw [List.cons_append] at parts
        rcases cuts_blocks.exists_of_cons parts with ⟨token, front, made, isPart, others⟩
        have later := ih others fun last isLast => stop last (List.mem_getLast?_cons isLast)
        have isPiece : judge token (Token.argumentRun
            (front ++ (before.flatMap Block.tokens ++ after.flatMap Block.tokens))) = part := by
          have isBlock : part = ⟨token :: front, part.verdict⟩ := by rw [← made]
          rw [isBlock]
          refine judge_append_congr (isPart.symm.trans isBlock) fun reason verdict takesRun => ?_
          cases before with
          | nil => exact stop part rfl reason verdict takesRun
          | cons next before =>
              have isFirst : blocks tokens = [] ++ part :: (next :: before ++ block :: after) :=
                parts
              have isWhole := (((verdict_iff isFirst).2 reason).mp verdict).stop takesRun
              rw [List.cons_append] at others
              rcases cuts_blocks.exists_of_cons others with ⟨first, rest, isNext, -⟩
              simpa [isNext] using isWhole
        have isCut :
            blocks (token ::
            (front ++ (before.flatMap Block.tokens ++ after.flatMap Block.tokens))) =
            part :: (before ++ after) := by
          rw [cuts_blocks.cons_append (by rw [isPiece, made]), isPiece, later]
        rw [List.flatMap_cons, made, List.cons_append, List.cons_append, List.append_assoc, isCut,
          List.cons_append]

end Validation

end Retouch
