import Retouch.Proofs.Command.Spans
import Retouch.Proofs.Effect.Collapse
import Retouch.Proofs.Invocation.AllowList

/-!
# Channels and the edit stack

The segments of a command are pushed on a stack one by one, and each entry is written by itself, as
if no selection were open before it. The operations of the command of the stack are those of the
pushed command, and they work on the same channels exactly if no operation loses its channels within
its segment: none that gets a selection of its own stands behind a selection that is not closed, and
no selection for a single operation stands inside another one.
-/

namespace Retouch

namespace Segment

def operations (segment : Segment) : List Operation :=
  Operation.ofWords (Literal.split (Text.unwords segment.tokens))

/-- Whether a segment makes an entry that is written from its effects. -/
def isEdited (segment : Segment) : Bool :=
  segment.kind != .skipped && !(Entry.editableEffects (Text.unwords segment.tokens)).isEmpty

/-- Whether no operation loses its channels in a segment that is written from its effects, given the
channels that are selected before the segments. -/
def KeepChannels (inForce : Text) : List Segment → Prop
  | [] => True
  | segment :: segments =>
      (segment.isEdited → ¬Selection.Loses false inForce segment.operations) ∧
        KeepChannels (Selection.afterAll inForce segment.operations) segments

/-- Whether no end of a selection is skipped where other channels are selected, given the channels
that are selected before the segments. -/
def SkipNoEnd (inForce : Text) : List Segment → Prop
  | [] => True
  | segment :: segments =>
      (segment.tokens = [Flag.regionClose] → inForce = Family.scopeTarget) ∧
        SkipNoEnd (Selection.afterAll inForce segment.operations) segments

instance decidableKeepChannels (inForce : Text) :
    (segments : List Segment) → Decidable (KeepChannels inForce segments)
  | [] => inferInstanceAs (Decidable True)
  | segment :: segments =>
      have : Decidable (KeepChannels (Selection.afterAll inForce segment.operations) segments) :=
        decidableKeepChannels _ segments
      inferInstanceAs (Decidable (_ ∧ _))

instance decidableSkipNoEnd (inForce : Text) :
    (segments : List Segment) → Decidable (SkipNoEnd inForce segments)
  | [] => inferInstanceAs (Decidable True)
  | segment :: segments =>
      have : Decidable (SkipNoEnd (Selection.afterAll inForce segment.operations) segments) :=
        decidableSkipNoEnd _ segments
      inferInstanceAs (Decidable (_ ∧ _))

/-! ## Segments and their tokens -/

theorem exists_first_of_mem {tokens : List Text} {segment : Segment}
    (member : segment ∈ ofTokens tokens) :
    ∃ token rest, segment = first token rest := by
  induction tokens using ofTokens.induct with
  | case1 => simp [ofTokens] at member
  | case2 token rest segment ih =>
      rw [ofTokens] at member
      rcases List.mem_cons.mp member with rfl | later
      · exact ⟨token, rest, rfl⟩
      · exact ih later

/-- A segment that is skipped is an argument, an end of a selection, a group delimiter or the safety
pair. -/
theorem tokens_of_skipped {tokens : List Text} {segment : Segment}
    (member : segment ∈ ofTokens tokens) (isSkipped : segment.kind = .skipped) :
    (∃ token, segment.tokens = [token] ∧
        (Token.isArgument token ∨ token = Flag.regionClose ∨ Token.isGroup token)) ∨
      segment.tokens = [safetyFlag, safetyArgument] := by
  obtain ⟨token, rest, rfl⟩ := exists_first_of_mem member
  rcases first_skipped isSkipped with isAlone | ⟨rfl, later, rfl⟩
  · refine .inl ⟨token, by rw [first_of_isAlone isAlone], ?_⟩
    rcases isAlone with isArgument | closes | rfl | ⟨rfl, -⟩
    · exact .inl isArgument
    · exact .inr (.inl closes)
    · exact .inr (.inr (by decide))
    · exact .inr (.inr (by decide))
  · exact .inr (by rw [first_safety])

end Segment

/-! ## What tokens stand for -/

/-- Whether a token stands for one value. A value that is a flag is written as it stands, and a flag
or group delimiter stands for itself. -/
structure Token.StandsFor (token value : Text) : Prop where
  reads : Literal.Reads token value
  isFaithful : Token.isFlag value → Flag.IsFaithful value
  starts : Token.isArgument token = false → value = token

namespace Literal

variable {first second : List Text}

theorem split_unwords_append (stand : ∀ token ∈ first ++ second, ∃ value,
    Token.StandsFor token value) :
    split (Text.unwords (first ++ second)) =
      split (Text.unwords first) ++ split (Text.unwords second) := by
  obtain ⟨values, reads⟩ := exists_forall₂ fun token member =>
    stand token (List.mem_append_left _ member)
  obtain ⟨others, readsOthers⟩ := exists_forall₂ fun token member =>
    stand token (List.mem_append_right _ member)
  replace reads : List.Forall₂ Reads first values := reads.imp fun _ _ stands => stands.reads
  replace readsOthers : List.Forall₂ Reads second others := readsOthers.imp fun _ _ stands =>
    stands.reads
  rw [split_unwords_filter reads, split_unwords_filter readsOthers,
    split_unwords_filter (List.rel_append reads readsOthers), List.filter_append]

theorem isFaithful_of_mem_split
    (stand : ∀ token ∈ first, ∃ value, Token.StandsFor token value) {word : Text}
    (member : word ∈ split (Text.unwords first)) (isFlag : Token.isFlag word) :
    Flag.IsFaithful word := by
  obtain ⟨values, reads⟩ := exists_forall₂ stand
  have areFaithful : ∀ value ∈ values, Token.isFlag value → Flag.IsFaithful value :=
    forall_of_forall₂ reads fun _ _ stands => stands.isFaithful
  rw [split_unwords_filter (reads.imp fun _ _ stands => stands.reads)] at member
  exact areFaithful word (List.mem_filter.mp member).1 isFlag

theorem split_unwords_cons {token : Text} {rest : List Text}
    (stand : ∀ other ∈ token :: rest, ∃ value, Token.StandsFor other value)
    (notArgument : Token.isArgument token = false) :
    split (Text.unwords (token :: rest)) = token :: split (Text.unwords rest) := by
  obtain ⟨value, stands⟩ := stand token (by simp)
  obtain rfl := stands.starts notArgument
  have nonempty := (Token.isStart_of_not_isArgument notArgument).1
  have alone : split (Text.unwords [value]) = [value] :=
    split_unwords (.cons stands.reads .nil) (by simpa using nonempty)
  rw [← List.singleton_append, split_unwords_append (by simpa using stand), alone]
  rfl

theorem isArgument_head?_split (stand : ∀ token ∈ first, ∃ value, Token.StandsFor token value)
    (stop : ∀ token ∈ first.head?, Token.isArgument token = false) :
    ∀ word ∈ (split (Text.unwords first)).head?, Token.isArgument word = false := by
  rcases first with _ | ⟨token, rest⟩
  · intro word member
    simp [split, splitFrom, State.flush] at member
  · rw [split_unwords_cons stand (stop token (by simp))]
    simpa using stop

end Literal

/-! ## Entries -/

/-- Whether words are what an entry makes of the words of its command: the same words if it is kept
raw, and the words of the same operations if it is written from its effects. -/
def Entry.Rewritten (command : Text) (words : List Text) : Prop :=
  (∀ word ∈ words.head?, Token.isArgument word = false) ∧
    if (editableEffects command).isEmpty then words = Literal.split command
    else Selection.Rewrites (Literal.split command) words

/-- A command that begins with a flag or a group delimiter makes an entry. -/
theorem Entry.exists_rewritten {tokens : List Text} (some : tokens ≠ [])
    (stand : ∀ token ∈ tokens, ∃ value, Token.StandsFor token value)
    (stop : ∀ token ∈ tokens.head?, Token.isArgument token = false) :
    ∃ text words, Renders (Text.unwords tokens) text words ∧
      Rewritten (Text.unwords tokens) words := by
  have start := Literal.isArgument_head?_split stand stop
  obtain ⟨token, others, rfl⟩ := List.exists_cons_of_ne_nil some
  have isStart := Token.isStart_of_not_isArgument (stop token (by simp))
  obtain ⟨values, both⟩ := exists_forall₂ stand
  have reads : List.Forall₂ Literal.Reads (token :: others) values := both.imp fun _ _ stands =>
    stands.reads
  have carries : Literal.Carries (Text.unwords (token :: others))
      (Literal.split (Text.unwords (token :: others))) :=
    ⟨_, values, rfl, reads, (Literal.split_unwords_filter reads).symm⟩
  by_cases raw : Entry.editableEffects (Text.unwords (token :: others)) = []
  · refine ⟨_, _, ⟨by simp [renderCommand, raw], ?_, carries, ?_⟩, start, by simp [raw]⟩
    · obtain ⟨c, characters, parts⟩ := List.exists_cons_of_ne_nil isStart.1
      have head : c ∈ token.head? := by simp [parts]
      refine Text.isAllBlank_eq_false ⟨c, ?_, (isStart.2 c head).isBlank⟩
      rwa [Text.head?_unwords_cons isStart.1]
    · simp [Literal.split_unwords_cons stand (stop token (by simp))]
  · have effects := Segment.editableEffects_eq carries raw
    have nonempty : ∀ word ∈ Literal.split (Text.unwords (token :: others)), word ≠ [] :=
      fun _ => Literal.ne_nil_of_mem_splitFrom
    obtain ⟨text, written, rendered, begins, carriesWritten, written_ne, rewrites⟩ :=
      Selection.exists_rewrites nonempty (fun _ => Literal.isFaithful_of_mem_split stand)
        (effects ▸ raw)
    refine ⟨text, written,
      ⟨?_, Text.isAllBlank_eq_false (exists_notBlank begins), carriesWritten, written_ne⟩,
      rewrites.stop, by simpa [raw] using rewrites⟩
    rw [renderCommand, if_neg (by simpa using raw), effects, rendered]

/-! ## Segments one after the other -/

namespace Segment

open Operation Selection

variable {segment : Segment} {segments : List Segment} {inForce : Text}

theorem operations_eq
    (stand : ∀ segment ∈ segments, ∀ token ∈ segment.tokens, ∃ value,
        Token.StandsFor token value)
    (stop : ∀ segment ∈ segments, ∀ token ∈ segment.tokens.head?,
        Token.isArgument token = false) :
    ofWords (Literal.split (Text.unwords (segments.flatMap tokens))) =
      segments.flatMap operations := by
  induction segments with
  | nil => rfl
  | cons segment segments ih =>
      have standRest : ∀ token ∈ segments.flatMap tokens, ∃ value,
          Token.StandsFor token value := by
        intro token member
        obtain ⟨other, otherMem, inTokens⟩ := List.mem_flatMap.mp member
        exact stand other (List.mem_cons_of_mem _ otherMem) token inTokens
      have stopRest : ∀ token ∈ (segments.flatMap tokens).head?, Token.isArgument token =
          false := by
        intro token member
        rw [List.head?_flatMap] at member
        obtain ⟨other, otherMem, inTokens⟩ := List.exists_of_findSome?_eq_some member
        exact stop other (List.mem_cons_of_mem _ otherMem) token inTokens
      have all : ∀ token ∈ segment.tokens ++ segments.flatMap tokens, ∃ value,
          Token.StandsFor token value := by
        intro token member
        rcases List.mem_append.mp member with here | later
        · exact stand segment (by simp) token here
        · exact standRest token later
      rw [List.flatMap_cons, Literal.split_unwords_append all,
        ofWords_append _ (Literal.isArgument_head?_split standRest stopRest), List.flatMap_cons,
        ih (fun other member => stand other (List.mem_cons_of_mem _ member))
          (fun other member => stop other (List.mem_cons_of_mem _ member))]
      rfl

theorem view_of_skipped {tokens : List Text} (member : segment ∈ ofTokens tokens)
    (isSkipped : segment.kind = .skipped)
    (stop : ∀ token ∈ segment.tokens.head?, Token.isArgument token = false)
    (ends : segment.tokens = [Flag.regionClose] → inForce = Family.scopeTarget) :
    view inForce segment.operations = [] ∧ afterAll inForce segment.operations = inForce := by
  rcases tokens_of_skipped member isSkipped with ⟨token, alone, kinds⟩ | safety
  · have notArgument := stop token (by simp [alone])
    rw [operations, alone]
    rcases kinds with isArgument | rfl | isGroup
    · simp [notArgument] at isArgument
    · rw [ends alone]
      decide
    · rcases Token.isGroup_iff.mp isGroup with rfl | rfl <;> exact ⟨rfl, rfl⟩
  · rw [operations, safety]
    exact ⟨rfl, rfl⟩

theorem view_of_rewritten {words : List Text} (notSkipped : segment.kind ≠ .skipped)
    (rewritten : Entry.Rewritten (Text.unwords segment.tokens) words) (inForce : Text) :
    (view inForce (ofWords words)).length = (view inForce segment.operations).length ∧
      (view inForce (ofWords words) = view inForce segment.operations ↔
        (segment.isEdited → ¬Loses false inForce segment.operations)) ∧
      ((segment.isEdited → ¬Loses false inForce segment.operations) →
        afterAll inForce (ofWords words) = afterAll inForce segment.operations) := by
  have same := rewritten.2
  unfold isEdited
  split at same
  · next raw =>
      subst same
      simp [raw, operations]
  · next edited =>
      have keeps : (segment.kind != .skipped &&
          !(Entry.editableEffects (Text.unwords segment.tokens)).isEmpty) = true := by
        simpa [notSkipped] using edited
      simp only [keeps, true_imp_iff]
      exact ⟨same.length inForce, same.view_iff inForce, same.afterAll_eq inForce⟩

/-- The words of the entries have the operations of the segments, and they work on the same channels
exactly if none loses its channels, as long as no end of a selection is skipped. -/
theorem view_flatten_iff {groups : List (List Text)}
    (rewritten : List.Forall₂ (fun part words => Entry.Rewritten part.command words)
      (segments.filterMap entry?) groups)
    (idle : ∀ segment ∈ segments, segment.kind = .skipped → ∀ inForce,
      (segment.tokens = [Flag.regionClose] → inForce = Family.scopeTarget) →
        view inForce segment.operations = [] ∧ afterAll inForce segment.operations = inForce)
    (ends : SkipNoEnd inForce segments) :
    view inForce (ofWords groups.flatten) = view inForce (segments.flatMap operations) ↔
      KeepChannels inForce segments := by
  induction segments generalizing inForce groups with
  | nil =>
      cases rewritten
      simp [KeepChannels, ofWords, takeApart]
  | cons segment segments ih =>
      have idleRest : ∀ other ∈ segments, other.kind = .skipped → ∀ inForce,
          (other.tokens = [Flag.regionClose] → inForce = Family.scopeTarget) →
            view inForce other.operations = [] ∧ afterAll inForce other.operations = inForce :=
        fun other member => idle other (List.mem_cons_of_mem _ member)
      rw [List.flatMap_cons, view_append, KeepChannels]
      by_cases isSkipped : segment.kind = .skipped
      · have none : segment.entry? = none := by rw [ entry?, if_pos isSkipped]
        obtain ⟨noView, unchanged⟩ := idle segment (by simp) isSkipped inForce ends.1
        have notEdited : segment.isEdited = false := by simp [isEdited, isSkipped]
        rw [List.filterMap_cons_none none] at rewritten
        have later := ih rewritten idleRest (unchanged ▸ ends.2)
        rw [noView, unchanged, List.nil_append, later]
        simp [notEdited]
      · have some : segment.entry? = some ⟨segment.label, Text.unwords segment.tokens⟩ := by
          rw [ entry?, if_neg isSkipped]
        rw [List.filterMap_cons_some some] at rewritten
        rcases rewritten with _ | ⟨first, others⟩
        next words groups =>
        have stop : ∀ token ∈ groups.flatten.head?, Token.isArgument token = false := by
          have each : ∀ group ∈ groups, ∀ token ∈ group.head?,
              Token.isArgument token = false :=
            forall_of_forall₂ others fun _ _ entry => entry.1
          intro token member
          rw [List.head?_flatten] at member
          obtain ⟨group, groupMem, inGroup⟩ := List.exists_of_findSome?_eq_some member
          exact each group groupMem token inGroup
        obtain ⟨sameLength, view_iff, afterAll_eq⟩ := view_of_rewritten isSkipped first inForce
        have later := ih others idleRest ends.2
        rw [List.flatten_cons, ofWords_append _ stop, view_append]
        -- Both sides show as many operations here, so they agree only if they agree here and
        -- behind.
        constructor
        · intro same
          obtain ⟨here, behind⟩ := List.append_inj same sameLength
          have keeps := view_iff.mp here
          rw [afterAll_eq keeps] at behind
          exact ⟨keeps, later.mp behind⟩
        · rintro ⟨keeps, keepBehind⟩
          rw [view_iff.mpr keeps, afterAll_eq keeps, later.mpr keepBehind]

end Segment

namespace EditStack

/-- Whether a text is read as validation reads it: no blank character ends the validated command,
and each argument stands for one value. A value that looks like a flag is written as it stands. -/
structure IsReadable (text : Text) : Prop where
  last : ∀ c ∈ (Validation.ofText text).command.getLast?, Text.isBlank c = false
  closed : ∀ token ∈ Token.ofText (Validation.ofText text).command, Token.isArgument token →
    ∃ value, Literal.Reads token value ∧ (Token.isFlag value → Flag.IsFaithful value)

variable {text : Text} {segment : Segment}

theorem IsReadable.exists_standsFor (isReadable : IsReadable text) {token : Text}
    (member : token ∈ Token.ofText (Validation.ofText text).command) :
    ∃ value, Token.StandsFor token value := by
  cases isArgument : Token.isArgument token with
  | true =>
      obtain ⟨value, reads, isFaithful⟩ := isReadable.closed token member isArgument
      exact ⟨value, reads, isFaithful, by simp [isArgument]⟩
  | false =>
      cases isFlag : Token.isFlag token with
      | true =>
          rw [Validation.ofText_command_tokens isReadable.last] at member
          obtain ⟨unit, unitMem, inUnit⟩ := List.mem_flatten.mp member
          have isAllowed := (Validation.isUnit_of_mem_units unitMem).flag_allowed inUnit isFlag
          have isFaithful :=
            (Flag.isOrdinary_of_isAllowed (List.contains_iff_mem.mpr isAllowed)).isFaithful
          exact ⟨token, isFaithful.writable.bare.reads, fun _ => isFaithful, fun _ => rfl⟩
      | false =>
          have isGroup : Token.isGroup token := by simpa [Token.isArgument, isFlag] using isArgument
          exact ⟨token, (Token.isBare_of_isGroup isGroup).reads, by simp [isFlag], fun _ => rfl⟩

theorem IsReadable.exists_standsFor_of_mem (isReadable : IsReadable text)
    (segmentMem : segment ∈ Segment.ofTokens (Token.ofText (Validation.ofText text).command))
    {token : Text}
    (tokenMem : token ∈ segment.tokens) : ∃ value, Token.StandsFor token value := by
  refine isReadable.exists_standsFor ?_
  rw [← Segment.flatMap_tokens_ofTokens (Token.ofText (Validation.ofText text).command)]
  exact List.mem_flatMap.mpr ⟨segment, segmentMem, tokenMem⟩

/-- A segment of a readable text begins with a flag or a group delimiter. -/
theorem IsReadable.isArgument_head?_of_mem (isReadable : IsReadable text)
    (segmentMem : segment ∈ Segment.ofTokens (Token.ofText (Validation.ofText text).command)) :
    segment.tokens ≠ [] ∧ ∀ token ∈ segment.tokens.head?, Token.isArgument token =
      false := by
  rw [Validation.ofText_command_tokens isReadable.last] at segmentMem
  obtain ⟨run, isInfix, same, isPiece⟩ := Segment.exists_units_of_mem_ofTokens
    (fun _ => Validation.isUnit_of_mem_units) segmentMem
  refine ⟨isPiece.ne_nil, ?_⟩
  rw [same]
  exact isArgument_head?_units fun unit unitMem =>
    Validation.isUnit_of_mem_units (isInfix.subset unitMem)

theorem IsReadable.ofCommand_eq (isReadable : IsReadable text) :
    Selection.ofCommand (Validation.ofText text).command =
      Selection.view Family.scopeTarget
        ((Segment.ofTokens (Token.ofText (Validation.ofText text).command)).flatMap
            Segment.operations) := by
  have joined : (Validation.ofText text).command =
      Text.unwords (Token.ofText (Validation.ofText text).command) := by
    rw [Validation.ofText_command_tokens isReadable.last, Validation.command_ofText]
    rfl
  rw [← Segment.operations_eq (fun _ member _ => isReadable.exists_standsFor_of_mem member)
      fun _ member => (isReadable.isArgument_head?_of_mem member).2,
    Segment.flatMap_tokens_ofTokens, ← joined, Selection.ofCommand]

/-- A text that is validated and pushed on a stack segment by segment always has a command. If the
text is readable and no end of a selection is skipped where other channels are selected, this
command has the operations of the validated one with the same channels selected at each of them
exactly if no operation loses its channels in its segment. -/
theorem selection_ofParts_iff (text : Text) (supply : IdSupply) (provenance : Provenance) :
    ∃ built,
      (ofParts supply provenance (Segment.split (Validation.ofText text).command)).command =
        .ok built ∧
      (IsReadable text →
        Segment.SkipNoEnd Family.scopeTarget
          (Segment.ofTokens (Token.ofText (Validation.ofText text).command)) →
        (Selection.ofCommand built = Selection.ofCommand (Validation.ofText text).command ↔
          Segment.KeepChannels Family.scopeTarget
            (Segment.ofTokens (Token.ofText (Validation.ofText text).command)))) := by
  obtain ⟨texts, rendered⟩ : ∃ texts, List.Forall₂
      (fun part text => Entry.renderCommand part.command = .ok text)
      (Segment.split (Validation.ofText text).command) texts :=
    exists_forall₂ fun part _ => Entry.exists_renderCommand part.command
  refine ⟨_, command_ofParts supply provenance rendered, fun isReadable ends => ?_⟩
  have stop : ∀ segment ∈ Segment.ofTokens (Token.ofText (Validation.ofText text).command),
      ∀ token ∈ segment.tokens.head?, Token.isArgument token = false := fun _ member =>
    (isReadable.isArgument_head?_of_mem member).2
  obtain ⟨groups, rewritten, -, words⟩ :=
    Invocation.exists_split_unwords Entry.Rewritten rendered
    fun part member => by
      obtain ⟨segment, segmentMem, command⟩ := Segment.exists_of_mem_split member
      rw [command]
      exact Entry.exists_rewritten (isReadable.isArgument_head?_of_mem segmentMem).1
        (fun _ => isReadable.exists_standsFor_of_mem segmentMem) (stop segment segmentMem)
  rw [isReadable.ofCommand_eq, Selection.ofCommand, words]
  exact Segment.view_flatten_iff rewritten (fun segment member isSkipped inForce =>
    Segment.view_of_skipped member isSkipped (stop segment member)) ends

/-- Closed selections, a group and a quoted argument are kept. -/
theorem selection_ofParts_regions :
    ∃ built, (ofParts {} .manual (Segment.split (Validation.ofText
        "-channel Red -negate -edge 2 +channel ( -blur 2 ) -fill 'a b' -negate").command)).command =
          .ok built ∧
      Selection.ofCommand built = Selection.ofCommand
        (Validation.ofText
            "-channel Red -negate -edge 2 +channel ( -blur 2 ) -fill 'a b' -negate").command := by
  let text : Text := "-channel Red -negate -edge 2 +channel ( -blur 2 ) -fill 'a b' -negate"
  have arguments : (Token.ofText (Validation.ofText text).command).filter Token.isArgument =
      ["Red".toList, "2".toList, "2".toList, "'a b'".toList] := by
    decide +kernel
  have isReadable : IsReadable text := by
    refine ⟨by decide +kernel, fun token member isArgument => ?_⟩
    have inArguments := List.mem_filter.mpr ⟨member, isArgument⟩
    rw [arguments] at inArguments
    simp only [List.mem_cons, List.not_mem_nil, or_false, or_self_left] at inArguments
    rcases inArguments with rfl | rfl | rfl
    · exact ⟨"Red", Literal.IsBare.reads (by decide), fun isFlag => absurd isFlag (by decide)⟩
    · exact ⟨"2", Literal.IsBare.reads (by decide), fun isFlag => absurd isFlag (by decide)⟩
    · exact ⟨"a b", fun _ _ => rfl, fun isFlag => absurd isFlag (by decide)⟩
  obtain ⟨built, command, keeps⟩ := selection_ofParts_iff text {} .manual
  exact ⟨built, command, (keeps isReadable (by decide +kernel)).mpr (by decide +kernel)⟩

/-- Behind a selection that is not closed, an operation is moved to all channels; inside a
selection, one is moved to the channels of this selection; an end of a selection that belongs to no
segment is lost; and a quote inside an argument hides an operation from the validated command
only. -/
theorem selection_ofParts_unclosed :
    ((ofParts {} .manual
        (Segment.split (Validation.ofText "-channel Red -negate").command)).command =
        .ok "-channel Red -channel RGB -negate +channel".toList ∧
      Selection.ofCommand "-channel Red -channel RGB -negate +channel" ≠
        Selection.ofCommand (Validation.ofText "-channel Red -negate").command) ∧
    ((ofParts {} .manual (Segment.split
        (Validation.ofText
            "-channel Red -channel RGB -negate +channel +channel").command)).command =
          .ok "-channel Red -negate +channel".toList ∧
      Selection.ofCommand "-channel Red -negate +channel" ≠
        Selection.ofCommand
          (Validation.ofText "-channel Red -channel RGB -negate +channel +channel").command) ∧
    ((ofParts {} .manual (Segment.split
        (Validation.ofText "( -channel Red ) +channel -blur 2").command)).command =
          .ok "( -channel Red ) -blur 2".toList ∧
      Selection.ofCommand "( -channel Red ) -blur 2" ≠
        Selection.ofCommand (Validation.ofText "( -channel Red ) +channel -blur 2").command) ∧
    ((ofParts {} .manual (Segment.split (Validation.ofText "-fill x'y -negate").command)).command =
        .ok "-fill xy -channel RGB -negate +channel".toList ∧
      Selection.ofCommand "-fill xy -channel RGB -negate +channel" ≠
        Selection.ofCommand (Validation.ofText "-fill x'y -negate").command) := by
  decide +kernel

end EditStack

end Retouch
