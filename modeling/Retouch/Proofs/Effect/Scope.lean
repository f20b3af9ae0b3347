import Retouch.Proofs.Command.Tokenization
import Retouch.Proofs.Effect.Operation

/-!
# Channel selections around operations

A list of operations is written as the forms of its operations one after the other, with a selection
of the colour channels around an operation that gets one of its own. A reader takes the tokens of a
form back as the same operation, with two exceptions around selections. A selection that was written
around an operation without its value is read as three operations. And a selection of all colour
channels that stands by itself is read together with the operation and the end of selection behind
it as one operation; that changes what is written exactly if a selection was open before it.
-/

namespace Retouch

namespace Operation

/-- Whether an operation is written with a selection of its own unless one is open. -/
def isScoped (operation : Operation) : Bool :=
  (Family.ofFlag (Flag.canonical operation.flag)).isScoped

/-- The words of an operation, given how an argument is written. -/
def words (form : Text → Text) (operation : Operation) : List Text :=
  operation.flag :: operation.arguments.map form

def scopedWords (form : Text → Text) (scopeOpen : Bool) (operation : Operation) : List Text :=
  if operation.isScoped && !scopeOpen then
    [Flag.regionOpen, Family.scopeTarget] ++ operation.words form ++ [Flag.regionClose]
  else
    operation.words form

/-- The words of a list of operations, given whether a selection is open before it. -/
def allWords (form : Text → Text) (scopeOpen : Bool) : List Operation → List Text
  | [] => []
  | operation :: operations =>
      operation.scopedWords form scopeOpen ++
        allWords form (operation.effect.scopeAfter scopeOpen) operations

def selectAll : Operation := ⟨Flag.regionOpen, [Family.scopeTarget]⟩

def reset : Operation := ⟨Flag.regionClose, []⟩

/-! ## Writing -/

theorem ne_nil_of_isFlag {flag : Text} (isFlag : Token.isFlag flag) : flag ≠ [] := by
  rintro rfl
  exact absurd isFlag (by decide)

theorem isFlag_regionOpen : Token.isFlag Flag.regionOpen := by decide

variable {form : Text → Text} {scopeOpen : Bool} {operation : Operation}

theorem exists_head_scopedWords (operation : Operation) (form : Text → Text) (scopeOpen : Bool) :
    ∃ head rest, operation.scopedWords form scopeOpen = head :: rest ∧
      (head = Flag.regionOpen ∨ head = operation.flag) := by
  unfold scopedWords
  split
  · exact ⟨Flag.regionOpen, _, rfl, .inl rfl⟩
  · exact ⟨operation.flag, _, rfl, .inr rfl⟩

theorem exists_cons_scopedWords (settled : operation.IsSettled) (form : Text → Text)
    (scopeOpen : Bool) :
    ∃ flag rest, operation.scopedWords form scopeOpen = flag :: rest ∧ Token.isFlag flag := by
  obtain ⟨flag, rest, words, rfl | rfl⟩ := exists_head_scopedWords operation form scopeOpen
  · exact ⟨_, rest, words, isFlag_regionOpen⟩
  · exact ⟨_, rest, words, settled.writable.isFlag⟩

/-- The words of an operation with a selection around it, joined. -/
theorem wrapScope_words (form : Text → Text) (operation : Operation) :
    Effect.wrapScope (Text.unwords (operation.words form)) =
      Text.unwords ([Flag.regionOpen, Family.scopeTarget] ++ operation.words form ++
          [Flag.regionClose]) := by
  have groups := Text.unwords_map_unwords
    [[Flag.regionOpen], [Family.scopeTarget], operation.words form, [Flag.regionClose]]
      (by simp [words])
  simpa [Effect.wrapScope] using groups

end Operation

/-- Whether an effect is written as an operation, with a selection around it wherever the operation
gets one. -/
structure Effect.RendersAs (effect : Effect) (operation : Operation) : Prop where
  named : operation.flag ≠ []
  written : effect.IsWritten operation.flag operation.arguments
  isOn : effect.isOff = false
  isScoped : (Family.ofFlag effect.flag).isScoped = operation.isScoped
  scopeAfter : ∀ scopeOpen, effect.scopeAfter scopeOpen = operation.effect.scopeAfter scopeOpen

theorem Effect.SettlesAs.rendersAs {effect : Effect} {operation : Operation}
    (settles : effect.SettlesAs operation) :
    effect.RendersAs operation where
  named := Operation.ne_nil_of_isFlag settles.settled.writable.isFlag
  written := settles.written
  isOn := settles.isOn
  isScoped := by rw [settles.alike.isScoped, Operation.effect, flag_readRun, Operation.isScoped]
  scopeAfter := settles.alike.scopeAfter

theorem Flag.ofCanonical_ne_nil (name : Text) : Flag.ofCanonical name ≠ [] := by
  unfold Flag.ofCanonical
  split <;> exact List.cons_ne_nil _ _

/-- An effect that is on and is written under its own flag. -/
theorem Effect.IsWritten.rendersAs {effect : Effect} {arguments : List Text}
    (written : effect.IsWritten (Flag.ofCanonical effect.flag) arguments)
    (isOn : effect.isOff = false) :
    effect.RendersAs ⟨Flag.ofCanonical effect.flag, arguments⟩ where
  named := Flag.ofCanonical_ne_nil effect.flag
  written := written
  isOn := isOn
  isScoped := by rw [Operation.isScoped, Flag.canonical_ofCanonical]
  scopeAfter := by
    intro scopeOpen
    simp only [scopeAfter, Operation.effect, flag_readRun, Flag.canonical_ofCanonical]

namespace Operation

variable {form : Text → Text} {scopeOpen : Bool} {operation : Operation}

theorem render_eq {effect : Effect} (renders : effect.RendersAs operation) (scopeOpen : Bool) :
    effect.render scopeOpen =
      .ok (Text.unwords (operation.scopedWords Literal.quote scopeOpen)) := by
  have written : effect.renderBody = .ok (Text.unwords (operation.words Literal.quote)) :=
    renders.written
  rw [Effect.render, renders.isOn, if_neg (by decide), written, renders.isScoped, scopedWords]
  split
  · rw [← wrapScope_words]
    simp [Except.map, *]
  · simp [Except.map, *]

theorem exists_renderParts {effects : List Effect} {operations : List Operation}
    (render : List.Forall₂ Effect.RendersAs effects operations) (scopeOpen : Bool) :
    ∃ groups : List (List Text), Effect.renderParts scopeOpen effects =
      .ok (groups.map Text.unwords) ∧
      (∀ group ∈ groups, group ≠ []) ∧
        groups.flatten = allWords Literal.quote scopeOpen operations := by
  induction render generalizing scopeOpen with
  | nil => exact ⟨[], rfl, by simp, rfl⟩
  | @cons effect operation effects operations first _ ih =>
      obtain ⟨groups, rendered, nonempty, words⟩ := ih (operation.effect.scopeAfter scopeOpen)
      obtain ⟨head, rest, start, either⟩ :=
        exists_head_scopedWords operation Literal.quote scopeOpen
      have head_ne : head ≠ [] := by
        rcases either with rfl | rfl
        · decide
        · exact first.named
      have part_ne : Text.unwords (operation.scopedWords Literal.quote scopeOpen) ≠ [] := by
        intro none
        have sameHead := Text.head?_unwords_cons head_ne rest
        rw [← start, none] at sameHead
        exact head_ne (List.head?_eq_none_iff.mp sameHead.symm)
      refine ⟨operation.scopedWords Literal.quote scopeOpen :: groups, ?_, ?_, ?_⟩
      · rw [Effect.renderParts, render_eq first, first.scopeAfter, rendered]
        simp [bind, Except.bind, pure, Except.pure, part_ne]
      · simpa [start] using nonempty
      · rw [List.flatten_cons, words, allWords]

theorem toCommand_eq_of_rendersAs {effects : List Effect} {operations : List Operation}
    (render : List.Forall₂ Effect.RendersAs effects operations) :
    Effect.toCommand effects = .ok (Text.unwords (allWords Literal.quote false operations)) := by
  obtain ⟨groups, rendered, nonempty, words⟩ := exists_renderParts render false
  rw [Effect.toCommand, rendered, ← words, ← Text.unwords_map_unwords _ nonempty]
  rfl

theorem toCommand_eq {effects : List Effect} {operations : List Operation}
    (settle : List.Forall₂ Effect.SettlesAs effects operations) :
    Effect.toCommand effects = .ok (Text.unwords (allWords Literal.quote false operations)) :=
  toCommand_eq_of_rendersAs (settle.imp fun _ _ settles => settles.rendersAs)

/-! ## Reading -/

theorem reads_words (bare : Literal.IsBare operation.flag) :
    List.Forall₂ Literal.Reads (operation.words Literal.quote) (operation.words id) := by
  refine .cons bare.reads ?_
  rw [List.map_id, List.forall₂_map_left_iff, List.forall₂_same]
  exact fun argument _ => Literal.reads_quote argument

theorem reads_scopedWords (bare : Literal.IsBare operation.flag) (scopeOpen : Bool) :
    List.Forall₂ Literal.Reads (operation.scopedWords Literal.quote scopeOpen)
      (operation.scopedWords id scopeOpen) := by
  have itself (text : Text) (isBare : Literal.IsBare text) : Literal.Reads text text := isBare.reads
  unfold scopedWords
  split
  · refine List.rel_append (List.rel_append ?_ (reads_words bare)) ?_
    · exact .cons (itself _ (by decide))
        (.cons (itself _ (by decide)) .nil)
    · exact .cons (itself _ (by decide)) .nil
  · exact reads_words bare

/-- The words of operations are read as they are, if their flags are. -/
theorem reads_allWords_of_isBare {operations : List Operation}
    (bare : ∀ operation ∈ operations, Literal.IsBare operation.flag) (scopeOpen : Bool) :
    List.Forall₂ Literal.Reads (allWords Literal.quote scopeOpen operations)
      (allWords id scopeOpen operations) := by
  induction operations generalizing scopeOpen with
  | nil => exact .nil
  | cons operation operations ih =>
      rw [List.forall_mem_cons] at bare
      exact List.rel_append (reads_scopedWords bare.1 scopeOpen) (ih bare.2 _)

theorem ne_nil_of_mem_scopedWords (isFlag : Token.isFlag operation.flag)
    (plain : Effect.ArePlain operation.arguments)
    {word : Text} (member : word ∈ operation.scopedWords id scopeOpen) : word ≠ [] := by
  have inWords (member : word ∈ operation.words id) : word ≠ [] := by
    rcases List.mem_cons.mp member with rfl | isArgument
    · exact ne_nil_of_isFlag isFlag
    · rw [List.map_id] at isArgument
      exact (plain word isArgument).1
  unfold scopedWords at member
  split at member
  · simp only [List.mem_append, List.mem_cons, List.not_mem_nil, or_false] at member
    rcases member with ((rfl | rfl) | inside) | rfl
    · decide
    · decide
    · exact inWords inside
    · decide
  · exact inWords member

/-- The words of an operation are read as they are. -/
theorem split_scopedWords (writable : Flag.IsWritable operation.flag)
    (plain : Effect.ArePlain operation.arguments) (scopeOpen : Bool) :
    Literal.split (Text.unwords (operation.scopedWords Literal.quote scopeOpen)) =
      operation.scopedWords id scopeOpen :=
  Literal.split_unwords (reads_scopedWords writable.bare scopeOpen) fun _ =>
    ne_nil_of_mem_scopedWords writable.isFlag plain

theorem ne_nil_of_mem_allWords {operations : List Operation}
    (settled : ∀ operation ∈ operations, operation.IsSettled) (scopeOpen : Bool) :
    ∀ word ∈ allWords id scopeOpen operations, word ≠ [] := by
  induction operations generalizing scopeOpen with
  | nil => simp [allWords]
  | cons operation operations ih =>
      rw [List.forall_mem_cons] at settled
      intro word member
      rcases List.mem_append.mp member with inFirst | later
      · exact ne_nil_of_mem_scopedWords settled.1.writable.isFlag settled.1.settles.plain inFirst
      · exact ih settled.2 _ word later

theorem reads_allWords {operations : List Operation}
    (settled : ∀ operation ∈ operations, operation.IsSettled) (scopeOpen : Bool) :
    List.Forall₂ Literal.Reads (allWords Literal.quote scopeOpen operations)
        (allWords id scopeOpen operations) ∧
      ∀ word ∈ allWords id scopeOpen operations, word ≠ [] :=
  ⟨reads_allWords_of_isBare (fun operation member => (settled operation member).writable.bare)
    scopeOpen, ne_nil_of_mem_allWords settled scopeOpen⟩

theorem split_allWords {operations : List Operation}
    (settled : ∀ operation ∈ operations, operation.IsSettled) (scopeOpen : Bool) :
    Literal.split (Text.unwords (allWords Literal.quote scopeOpen operations)) =
      allWords id scopeOpen operations :=
  Literal.split_unwords (reads_allWords settled scopeOpen).1 (reads_allWords settled scopeOpen).2

end Operation

end Retouch
