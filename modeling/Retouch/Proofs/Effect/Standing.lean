import Retouch.Proofs.Effect.Collapse

/-!
# The operations that a command is read as

A reader takes a command apart flag by flag, and each family takes as many of the arguments behind a
flag as it needs. Whatever it takes, no flag is lost, none comes about and none changes its place:
the effects are those of the flags in their order, each made of its flag and the run of arguments
behind it. The one exception is a selection of all colour channels around a single `-negate`, or a
single `-edge` with its argument, of which only the operation in the middle is left.
-/

namespace Retouch

namespace Operation

/-- Whether an operation is one that a selection of all colour channels can belong to: `-negate`
without arguments, or `-edge` with one. -/
def IsWrappable (operation : Operation) : Prop :=
  (operation.flag = "-negate".toList ∧ operation.arguments.length = 0) ∨
    (operation.flag = "-edge".toList ∧ operation.arguments.length = 1)

instance (operation : Operation) : Decidable operation.IsWrappable :=
  inferInstanceAs (Decidable (_ ∨ _))

/-- The operation in a selection of all colour channels for it alone and what follows the selection,
if the tokens begin with one. -/
def wrapped? : List Text → Option (Operation × List Text)
  | opening :: target :: flag :: following =>
      match following.dropWhile Token.isArgument with
      | closing :: after =>
          if opening = Flag.regionOpen ∧ target = Family.scopeTarget ∧
              IsWrappable ⟨flag, Token.argumentRun following⟩ ∧
                  closing = Flag.regionClose then
            some (⟨flag, Token.argumentRun following⟩, after)
          else
            none
      | [] => none
  | _ => none

/-- The words of a selection for a single operation. -/
theorem wrapped?_eq_some_iff {tokens after : List Text} {operation : Operation} :
    wrapped? tokens = some (operation, after) ↔
      operation.IsWrappable ∧
        (∀ argument ∈ operation.arguments, Token.isArgument argument) ∧
        tokens = Flag.regionOpen :: Family.scopeTarget ::
          (operation.words id ++ Flag.regionClose :: after) := by
  constructor
  · intro found
    unfold wrapped? at found
    split at found
    · next opening target flag following =>
        split at found
        · next closing rest behind =>
            split at found
            · next conditions =>
                rcases conditions with ⟨rfl, rfl, isWrappable, rfl⟩
                rcases Prod.mk.inj (Option.some.inj found) with ⟨rfl, rfl⟩
                refine ⟨isWrappable, fun argument => List.mem_takeWhile_imp, ?_⟩
                rw [words, List.map_id, List.cons_append, ← behind, Token.argumentRun,
                  List.takeWhile_append_dropWhile]
            · simp at found
        · simp at found
    · simp at found
  · rintro ⟨isWrappable, plain, rfl⟩
    have stop : ∀ token ∈ (Flag.regionClose :: after).head?,
        Token.isArgument token = false := by
      simp only [List.head?_cons, Option.mem_some_iff, forall_eq']
      decide
    have behind : (operation.arguments ++ Flag.regionClose :: after).dropWhile Token.isArgument =
        Flag.regionClose :: after := by
      rw [List.dropWhile_append_of_pos plain, List.dropWhile_cons_of_neg (by decide)]
    rw [words, List.map_id, List.cons_append, wrapped?, behind, Token.argumentRun_append plain stop]
    exact if_pos ⟨rfl, rfl, isWrappable, rfl⟩

theorem length_wrapped?_lt {tokens after : List Text} {operation : Operation}
    (found : wrapped? tokens = some (operation, after)) : after.length < tokens.length := by
  rcases wrapped?_eq_some_iff.mp found with ⟨-, -, rfl⟩
  simp only [List.length_append, List.length_cons]
  omega

/-- The operations that stand in a token list: every flag in order, with the run of arguments behind
it. Of a selection of all colour channels for a single operation, only this operation stands. -/
def standing : List Text → List Operation
  | [] => []
  | token :: rest =>
      match _ : wrapped? (token :: rest) with
      | some (operation, after) => operation :: standing after
      | none =>
          if Token.isFlag token then ⟨token, Token.argumentRun rest⟩ :: standing rest
          else standing rest
termination_by tokens => tokens.length
decreasing_by
  · exact length_wrapped?_lt ‹_›
  · simp
  · simp

theorem standing_of_some {token : Text} {rest after : List Text} {operation : Operation}
    (found : wrapped? (token :: rest) = some (operation, after)) :
    standing (token :: rest) = operation :: standing after := by
  rw [standing]
  split
  · next other =>
      rcases Prod.mk.inj (Option.some.inj (found.symm.trans other)) with ⟨rfl, rfl⟩
      rfl
  · next absent => simp [found] at absent

theorem standing_of_none {token : Text} {rest : List Text}
    (absent : wrapped? (token :: rest) = none) :
    standing (token :: rest) =
      if Token.isFlag token then ⟨token, Token.argumentRun rest⟩ :: standing rest
        else standing rest := by
  rw [standing]
  split
  · next found => simp [absent] at found
  · rfl

theorem IsWrappable.isSingle {operation : Operation} (isWrappable : operation.IsWrappable) :
    operation.IsSingle := by
  rcases operation with ⟨flag, arguments⟩
  rcases isWrappable with ⟨rfl, none⟩ | ⟨rfl, one⟩
  · rcases List.length_eq_zero_iff.mp none with rfl
    exact ⟨by decide, by decide, rfl⟩
  · rcases List.length_eq_one_iff.mp one with ⟨argument, rfl⟩
    have isFlag : Token.isFlag "-edge" := by decide
    have isScoped : (Family.ofFlag (Flag.canonical "-edge")).isScoped := by decide
    exact ⟨isFlag, isScoped, rfl⟩

end Operation

namespace Family

theorem eq_of_isScoped {name : Text} (isScoped : (ofFlag name).isScoped) :
    name = "negate".toList ∨ name = "edge".toList := by
  have known : ∀ entry ∈ table, entry.2.isScoped → entry.1 = "negate".toList ∨
      entry.1 = "edge".toList := by
    decide +kernel
  rcases generic_or_mem_table name with generic | member
  · simp [generic, Family.isScoped] at isScoped
  · exact known _ member isScoped

end Family

theorem Flag.eq_of_canonical {flag name : Text} (isFlag : Token.isFlag flag)
    (same : canonical flag = name) (noFlag : Token.isFlag name = false) : flag = '-' :: name := by
  unfold canonical at same
  split at same
  · rw [same]
  · rw [same, noFlag] at isFlag
    simp at isFlag

namespace Effect

open Operation

/-- An operation that is read together with the selection around it takes all of its arguments. -/
theorem isWrappable_of_read {flag : Text} {following : List Text} {effect : Effect} {count : ℕ}
    (isFlag : Token.isFlag flag) (isScoped : (Family.ofFlag (Flag.canonical flag)).isScoped)
    (read : (Family.ofFlag (Flag.canonical flag)).read flag (Token.argumentRun following) =
        some (effect, count))
    (closes : (following.drop count).head? = some Flag.regionClose) :
    IsWrappable ⟨flag, Token.argumentRun following⟩ ∧
      count = (Token.argumentRun following).length := by
  have isClose : Token.isArgument Flag.regionClose = false := by decide
  rcases List.head?_eq_some_iff.mp closes with ⟨after, behind⟩
  rcases Family.eq_of_isScoped isScoped with name | name
  · rcases Flag.eq_of_canonical isFlag name (by decide) with rfl
    obtain rfl : 0 = count := congrArg Prod.snd (Option.some.inj read)
    rw [List.drop_zero] at behind
    have none : Token.argumentRun following = [] := by
      simp [Token.argumentRun, behind, isClose]
    rw [none]
    exact ⟨.inl ⟨rfl, rfl⟩, rfl⟩
  · rcases Flag.eq_of_canonical isFlag name (by decide) with rfl
    have parts : Token.argumentRun following ++ following.dropWhile Token.isArgument = following :=
      List.takeWhile_append_dropWhile
    rcases run : Token.argumentRun following with _ | ⟨argument, others⟩
    · -- Without an argument the family reads nothing.
      rw [run] at read
      exact absurd (show none = some (effect, count) from read) (by simp)
    · rw [run] at read parts
      obtain rfl : 1 = count := congrArg Prod.snd (Option.some.inj read)
      rw [← parts, List.cons_append, List.drop_succ_cons, List.drop_zero] at behind
      rcases others with _ | ⟨other, others⟩
      · exact ⟨.inr ⟨rfl, rfl⟩, rfl⟩
      · -- A further argument would stand where the end of the selection stands.
        obtain rfl : other = Flag.regionClose := (List.cons.inj behind).1
        have isArgument : Token.isArgument Flag.regionClose :=
          List.mem_takeWhile_imp (l := following) (by rw [← Token.argumentRun, run]; simp)
        simp [isClose] at isArgument

theorem readScoped?_eq (rest : List Text) :
    readScoped? rest =
      (wrapped? (Flag.regionOpen :: rest)).map fun (operation, _) =>
        (operation.effect, operation.arguments.length + 3) := by
  cases found : wrapped? (Flag.regionOpen :: rest) with
  | some wrapped =>
      rcases wrapped with ⟨operation, after⟩
      rcases wrapped?_eq_some_iff.mp found with ⟨isWrappable, plain, tokens⟩
      rcases isWrappable.isSingle with ⟨isFlag, isScoped, read⟩
      rcases (List.cons.inj tokens).2 with rfl
      have stop : ∀ token ∈ (Flag.regionClose :: after).head?, Token.isArgument token =
          false := by
        simp only [List.head?_cons, Option.mem_some_iff, forall_eq']
        decide
      rw [words, List.map_id, List.cons_append, readScoped?, if_pos ⟨rfl, isFlag, isScoped⟩,
        Token.argumentRun_append plain stop, read]
      simp
  | none =>
      rw [Option.map_none, Option.eq_none_iff_forall_not_mem]
      intro reading isReading
      rcases exists_of_readScoped? isReading with
        ⟨flag, following, effect, count, rfl, isFlag, isScoped, read, closes, -⟩
      rcases isWrappable_of_read isFlag isScoped read closes with ⟨isWrappable, rfl⟩
      rcases List.head?_eq_some_iff.mp closes with ⟨after, behind⟩
      have some : wrapped? (Flag.regionOpen :: Family.scopeTarget :: flag :: following) =
          some (⟨flag, Token.argumentRun following⟩, after) := by
        refine wrapped?_eq_some_iff.mpr
          ⟨isWrappable, fun argument => List.mem_takeWhile_imp, ?_⟩
        have whole : Token.argumentRun following ++ Flag.regionClose :: after = following := by
          rw [← behind]
          exact List.prefix_iff_eq_append.mp (List.takeWhile_prefix _)
        simp only [words, List.map_id, List.cons_append, whole]
      simp [some] at found

theorem ofTokens_drop {count : ℕ} {tokens : List Text}
    (few : count ≤ (Token.argumentRun tokens).length) :
    ofTokens (tokens.drop count) = ofTokens tokens := by
  have plain : ∀ argument ∈ tokens.take count, Token.isArgument argument := by
    intro argument member
    have isPrefix : tokens.take count <+: Token.argumentRun tokens :=
      List.prefix_of_prefix_length_le (List.take_prefix _ _) (List.takeWhile_prefix _)
        ((List.length_take_le _ _).trans few)
    exact List.mem_takeWhile_imp (isPrefix.subset member)
  rw [← ofTokens_arguments plain, List.take_append_drop]

/-- The effects are those of the operations that stand in the tokens. -/
theorem ofTokens_eq_map_standing (tokens : List Text) :
    ofTokens tokens = (standing tokens).map Operation.effect := by
  induction tokens using standing.induct with
  | case1 => rw [ofTokens, standing, List.map_nil]
  | case2 token rest operation after found ih =>
      rcases wrapped?_eq_some_iff.mp found with ⟨-, -, tokens⟩
      rcases List.cons.inj tokens with ⟨rfl, rfl⟩
      have left : (Family.scopeTarget :: (operation.words id ++ Flag.regionClose :: after)).drop
          (operation.arguments.length + 3) = after := by
        simp [words]
      rw [standing_of_some found, ofTokens_flag isFlag_regionOpen, readFirst, if_pos rfl,
        readScoped?_eq, found, Option.map_some, Option.getD_some, left, ih, List.map_cons]
  | case3 token rest absent isFlag ih =>
      have alone : readFirst token rest = readRun token (Token.argumentRun rest) := by
        unfold readFirst
        split
        · next opens =>
            rw [readScoped?_eq, ← opens, absent, Option.map_none, Option.getD_none, readFlag_eq]
        · rfl
      rw [standing_of_none absent, if_pos isFlag, ofTokens_flag isFlag, alone,
        ofTokens_drop (taken_readRun_le _ _), ih]
      rfl
  | case4 token rest absent notFlag ih =>
      rw [standing_of_none absent, if_neg notFlag, ofTokens, if_neg notFlag, ih]

/-- A command is read as the operations that stand in its literal arguments: each effect has the
name of its flag and is made of this flag and the arguments behind it. -/
theorem ofCommand_eq_map_standing (text : Text) :
    ofCommand text = (standing (Literal.split text)).map Operation.effect ∧
      (ofCommand text).map Effect.flag =
        (standing (Literal.split text)).map fun operation => Flag.canonical operation.flag := by
  have effects : ofCommand text = (standing (Literal.split text)).map Operation.effect :=
    ofTokens_eq_map_standing _
  refine ⟨effects, ?_⟩
  rw [effects, List.map_map]
  exact List.map_congr_left fun operation _ => flag_effect operation

end Effect

end Retouch
