import Mathlib.Data.List.Chain
import Spellcast.Proofs.Arena
import Spellcast.Session.Part

/-!
# Asking in turn

A cancellation tells the observers among the remaining instructions, and a fork asks the manipulators among them. Both
go through the instructions in order, hand each one what the one before has left, and end with the first that says so.
`InTurn` says this of any list of things that can be asked: who was asked, and in which state.
-/

namespace Spellcast

section InTurn

variable {α σ : Type} {ask : α → σ → Bool × σ} {item : α} {all : List α} {start next final : σ}
  {asked : List (α × σ)}

/-- Of all that can be asked these were asked, in order and each once, in the state that the one before has left. Each
answers whether to go on, and those that were asked last either have nothing behind them or have said no. -/
structure InTurn (ask : α → σ → Bool × σ) (all : List α) (start : σ) (asked : List (α × σ)) (final : σ) : Prop where
  order : asked.map (·.1) <+: all
  first : ∀ question ∈ asked.head?, question.2 = start
  next : asked.IsChain fun earlier later => ask earlier.1 earlier.2 = (true, later.2)
  complete : asked.map (·.1) = all ∨ ∃ last ∈ asked.getLast?, (ask last.1 last.2).1 = false
  final : final = (asked.map (·.1)).foldl (fun state item => (ask item state).2) start

theorem InTurn.nil : InTurn ask [] start [] start where
  order := List.prefix_rfl
  first _ nothing := nomatch nothing
  next := .nil
  complete := .inl rfl
  final := rfl

theorem InTurn.stop
    (answer : ask item start = (false, final))
    (rest : List α) :
    InTurn ask (item :: rest) start [(item, start)] final where
  order := ⟨rest, rfl⟩
  first question isFirst := by
    rw [← Option.some.inj isFirst]
  next := List.isChain_singleton _
  complete := .inr ⟨(item, start), rfl, congrArg Prod.fst answer⟩
  final := by
    rw [List.map_singleton, List.foldl_cons, answer, List.foldl_nil]

theorem InTurn.cons
    (answer : ask item start = (true, next))
    (later : InTurn ask all next asked final) :
    InTurn ask (item :: all) start ((item, start) :: asked) final where
  order := List.prefix_cons_inj item |>.mpr later.order
  first question isFirst := by
    rw [← Option.some.inj isFirst]
  next := by
    apply List.isChain_cons.mpr
    constructor
    · intro question isNext
      rw [later.first question isNext, answer]
    · exact later.next
  complete := by
    rcases later.complete with everyone | ⟨last, isLast, stops⟩
    · left
      rw [List.map_cons, everyone]
    · right
      exact ⟨last, List.mem_getLast?_cons isLast, stops⟩
  final := by
    rw [List.map_cons, List.foldl_cons, answer]
    exact later.final

/-- What nobody who was asked has changed is the same in the end. -/
theorem InTurn.kept
    {β : Type}
    (inTurn : InTurn ask all start asked final)
    (view : σ → β)
    (kept : ∀ question ∈ asked, view (ask question.1 question.2).2 = view question.2) :
    view final = view start := by
  obtain ⟨-, first, next, -, rfl⟩ := inTurn
  induction asked generalizing start with
  | nil =>
      rfl
  | cons question later inductionHypothesis =>
      obtain rfl := first question rfl
      have handedOn : ∀ other ∈ later.head?, other.2 = (ask question.1 question.2).2 := by
        intro other isNext
        rw [(List.isChain_cons.mp next).1 other isNext]
      have keptLater := inductionHypothesis (fun other member => kept other (List.mem_cons_of_mem _ member)) handedOn
        (List.isChain_cons.mp next).2
      rw [List.map_cons, List.foldl_cons, keptLater]
      exact kept question List.mem_cons_self

end InTurn

variable {κ : Type} {behaviour : Behaviour κ} {context : Context κ}

namespace Context

/-- Tells an observer that the context is canceled. It answers whether to go on, and leaves the context and the realm
changed. -/
def tell (behaviour : Behaviour κ) (observer : κ) (state : Context κ × Realm) : Bool × Context κ × Realm :=
  behaviour.notify observer state.1 state.2

theorem walk_inTurn
    (behaviour : Behaviour κ)
    (instructions : List (Instruction κ))
    (state : Walk κ)
    (unabsorbed : state.absorbed = false) :
    ∃ told final,
      InTurn (tell behaviour) (instructions.filterMap (·.observer)) (state.context, state.realm) told final ∧
      walk behaviour instructions state =
        { context := final.1, realm := final.2, told := state.told + told.length
          absorbed := told.any fun question => !(tell behaviour question.1 question.2).1 } := by
  induction instructions generalizing state with
  | nil =>
      refine ⟨[], (state.context, state.realm), .nil, ?_⟩
      rw [walk, List.any_nil, ← unabsorbed]
      rfl
  | cons instruction rest inductionHypothesis =>
      cases observes : instruction.observer with
      | none =>
          rw [List.filterMap_cons_none observes, walk, observes]
          exact inductionHypothesis state unabsorbed
      | some observer =>
          rw [List.filterMap_cons_some observes]
          rcases answer : behaviour.notify observer state.context state.realm with ⟨goesOn, after, realm⟩
          have told : tell behaviour observer (state.context, state.realm) = (goesOn, after, realm) := answer
          cases goesOn with
          | false =>
              refine ⟨_, (after, realm), .stop told _, ?_⟩
              simp [walk, observes, answer, told]
          | true =>
              obtain ⟨others, final, inTurn, walked⟩ :=
                inductionHypothesis { context := after, realm, told := state.told + 1, absorbed := false } rfl
              refine ⟨_, final, .cons told inTurn, ?_⟩
              rw [walk, observes]
              simp only [answer, Bool.not_true, if_true]
              rw [walked, List.any_cons, told, List.length_cons, Nat.add_assoc, Nat.add_comm 1]
              simp

/-- A cancellation tells exactly the observers among the instructions that remain at the time of the call, in order and
each once, up to the first that ends it. The first one finds the context canceled for the reason and each further one
what the one before has left, whatever they do to the counter or the program; the last one leaves the result. The log
says how many were told and whether one has ended it. If none of them meddles with the cancellation, the context ends up
canceled for the reason, and nothing can run in it. -/
theorem cancellationsTellObserversInTurn
    (behaviour : Behaviour κ)
    (reason : CancelReason)
    (context : Context κ)
    (realm : Realm) :
    let observers := (context.program.instructions.drop context.counter).filterMap (·.observer)
    let canceled := { context with canceled := true, cancelReason := some reason }
    let after := context.cancel behaviour reason realm
    ∃ told final, InTurn (tell behaviour) observers (canceled, realm) told final ∧
      after.1 = final.1 ∧
      after.2 = final.2.emit (.canceled ((final.1.cancelReason.map CancelReason.text).getD "") final.1.counter
        told.length (told.any fun question => !(tell behaviour question.1 question.2).1)) ∧
      ((∀ question ∈ told,
          let left := (tell behaviour question.1 question.2).2.1
          (left.canceled, left.cancelReason) = (question.2.1.canceled, question.2.1.cancelReason)) →
        after.1.canceled = true ∧ after.1.cancelReason = some reason ∧ after.1.hasNext = false) := by
  intro observers canceled after
  obtain ⟨told, final, inTurn, walked⟩ := walk_inTurn behaviour canceled.remainder.instructions
    { context := canceled, realm, told := 0, absorbed := false } rfl
  have result : after =
      (final.1, final.2.emit (.canceled ((final.1.cancelReason.map CancelReason.text).getD "") final.1.counter
        told.length (told.any fun question => !(tell behaviour question.1 question.2).1))) := by
    simp only [after, cancel]
    rw [walked, Nat.zero_add]
  refine ⟨told, final, inTurn, by rw [result], by rw [result], ?_⟩
  intro spare
  have kept : (final.1.canceled, final.1.cancelReason) = (true, some reason) :=
    inTurn.kept (fun state => (state.1.canceled, state.1.cancelReason)) spare
  obtain ⟨isCanceled, isReason⟩ := Prod.mk.inj kept
  rw [result]
  exact ⟨isCanceled, isReason, by simp [hasNext, isCanceled]⟩

/-- Of five observers the first one is past. The second moves the counter, and yet the third one is told; it ends the
walk, so the last two are not told. -/
theorem cancellationsTellObserversInTurn_movedCounter :
    let watched (part : Session.Part) : Instruction Session.Part :=
      { id := Glyph.marksId, effect := ⟨0, .stub none⟩, observer := some part, manipulator := none }
    let parts : List Session.Part :=
      [.scriptObserver "move" [.setCounter 9] true, .recorder "last" false, .recorder "spared" true]
    let context : Context Session.Part :=
      { Context.ofProgram (.ofInstructions (watched (.recorder "past" true) :: parts.map watched)) with
        counter := 1, suspension := some ⟨5⟩ }
    let after := context.cancel Session.Part.behaviour .newContext .empty
    after.2.journal = #["observe:move", "canceled:last"] ∧
      after.2.log = #[⟨.canceled "new_context" 9 2 true, []⟩] ∧
      after.1.canceled = true ∧ after.1.cancelReason = some .newContext ∧ after.1.hasNext = false := by
  intro watched parts context after
  obtain ⟨told, final, inTurn, -, -, keeps⟩ :=
    cancellationsTellObserversInTurn Session.Part.behaviour .newContext context .empty
  refine ⟨by decide +kernel, by decide +kernel, keeps ?_⟩
  intro question member
  have asked : question.1 ∈ parts := inTurn.order.subset (List.mem_map_of_mem member)
  simp only [parts, List.mem_cons, List.not_mem_nil, or_false] at asked
  rcases asked with isMove | isLast | isSpared
  · rw [isMove]
    rfl
  · rw [isLast]
    rfl
  · rw [isSpared]
    rfl

/-- Asks a manipulator whether it wants to supply the child of a fork, and then for the child. It supplies what it
proposes if it wants to. -/
def supply (behaviour : Behaviour κ) (context : Context κ) (manipulator : κ) (realm : Realm) :
    Option (Context κ) × Realm :=
  let (wants, realm) := behaviour.wantsPush manipulator context realm
  let (proposed, realm) := behaviour.propose manipulator context realm
  (if wants then proposed else none, realm)

/-- Asks a manipulator both questions of a fork. It answers whether to go on to the next one. -/
def passOver (behaviour : Behaviour κ) (context : Context κ) (manipulator : κ) (realm : Realm) : Bool × Realm :=
  ((supply behaviour context manipulator realm).1.isNone, (supply behaviour context manipulator realm).2)

theorem consult_cons
    {instruction : Instruction κ}
    {manipulator : κ}
    (manipulates : instruction.manipulator = some manipulator)
    (position : Nat)
    (rest : List (Instruction κ))
    (realm : Realm) :
    consult behaviour context position (instruction :: rest) realm =
      match supply behaviour context manipulator realm with
      | (some child, realm) =>
        (some (position, child), realm.emit (.manipulatorSelected instruction.id.text position))
      | (none, realm) => consult behaviour context (position + 1) rest realm := by
  rcases asked : behaviour.wantsPush manipulator context realm with ⟨wants, asking⟩
  rcases answer : behaviour.propose manipulator context asking with ⟨proposed, answering⟩
  cases wants with
  | false => simp [consult, supply, manipulates, asked, answer]
  | true =>
      cases proposed with
      | none => simp [consult, supply, manipulates, asked, answer]
      | some child => simp [consult, supply, manipulates, asked, answer]

/-- An instruction has supplied the child of a fork: it is the first whose manipulator does. -/
structure Supplied (behaviour : Behaviour κ) (context : Context κ) (instructions : List (Instruction κ))
    (asked : List (κ × Realm)) (instruction : Instruction κ) (position : Nat) (child : Context κ) : Prop where
  found : instructions[position]? = some instruction
  passed : asked.length = ((instructions.take position).filterMap (·.manipulator)).length + 1
  child : ∃ last ∈ asked.getLast?, instruction.manipulator = some last.1 ∧
    (supply behaviour context last.1 last.2).1 = some child

theorem consult_inTurn
    (behaviour : Behaviour κ)
    (context : Context κ)
    (offset : Nat)
    (instructions : List (Instruction κ))
    (realm : Realm) :
    ∃ asked final, InTurn (passOver behaviour context) (instructions.filterMap (·.manipulator)) realm asked final ∧
      ((∀ question ∈ asked, (supply behaviour context question.1 question.2).1 = none) ∧
          consult behaviour context offset instructions realm = (none, final) ∨
        ∃ instruction position child, Supplied behaviour context instructions asked instruction position child ∧
          consult behaviour context offset instructions realm =
            (some (offset + position, child),
              final.emit (.manipulatorSelected instruction.id.text (offset + position)))) := by
  induction instructions generalizing offset realm with
  | nil =>
      exact ⟨[], realm, .nil, .inl ⟨fun _ member => absurd member List.not_mem_nil, rfl⟩⟩
  | cons instruction rest inductionHypothesis =>
      cases manipulates : instruction.manipulator with
      | none =>
          rw [List.filterMap_cons_none manipulates, consult, manipulates]
          obtain ⟨asked, final, inTurn, nothing | ⟨supplier, position, child, supplied, answer⟩⟩ :=
            inductionHypothesis (offset + 1) realm
          · exact ⟨asked, final, inTurn, .inl nothing⟩
          · refine ⟨asked, final, inTurn, .inr ⟨supplier, position + 1, child, ?_, ?_⟩⟩
            · refine ⟨supplied.found, ?_, supplied.child⟩
              rw [List.take_succ_cons, List.filterMap_cons_none manipulates]
              exact supplied.passed
            · rw [← Nat.add_assoc, Nat.add_right_comm]
              exact answer
      | some manipulator =>
          rw [List.filterMap_cons_some manipulates, consult_cons manipulates]
          rcases answered : supply behaviour context manipulator realm with ⟨proposed, after⟩
          cases proposed with
          | some child =>
              have stops : passOver behaviour context manipulator realm = (false, after) := by
                simp [passOver, answered]
              refine ⟨_, after, .stop stops _, .inr ⟨instruction, 0, child, ?_, rfl⟩⟩
              exact ⟨rfl, rfl, _, rfl, manipulates, congrArg Prod.fst answered⟩
          | none =>
              have goesOn : passOver behaviour context manipulator realm = (true, after) := by
                simp [passOver, answered]
              obtain ⟨asked, final, inTurn, ⟨nothing, answer⟩ | ⟨supplier, position, child, supplied, answer⟩⟩ :=
                inductionHypothesis (offset + 1) after
              · refine ⟨_, final, .cons goesOn inTurn, .inl ⟨?_, answer⟩⟩
                intro question member
                rcases List.mem_cons.mp member with first | later
                · rw [first, answered]
                · exact nothing question later
              · refine ⟨_, final, .cons goesOn inTurn, .inr ⟨supplier, position + 1, child, ?_, ?_⟩⟩
                · obtain ⟨last, isLast, supplies⟩ := supplied.child
                  refine ⟨supplied.found, ?_, last, List.mem_getLast?_cons isLast, supplies⟩
                  rw [List.take_succ_cons, List.filterMap_cons_some manipulates, List.length_cons, supplied.passed]
                  rfl
                · rw [← Nat.add_assoc, Nat.add_right_comm]
                  exact answer

variable {context child : Context κ} {self : ContextId} {realm after : Realm} {position : Nat}

theorem makeChild_of_none
    (answer : consult behaviour context 0 context.remainder.instructions realm = (none, after)) :
    context.makeChild behaviour self realm = (⟨{ context.continuation with parent := some self }, none⟩, after) := by
  rw [makeChild, answer]

theorem makeChild_of_some
    (answer : consult behaviour context 0 context.remainder.instructions realm = (some (position, child), after)) :
    context.makeChild behaviour self realm = (⟨{ child with parent := some self }, some position⟩, after) := by
  rw [makeChild, answer]

/-- A fork asks the manipulators among the remaining instructions, in order and each once, up to the first that supplies
a context. That context is the child, with the forked one as its parent; without it the child is a copy that runs what
remains from its start, under the parent. The arena stores the child under a new number and changes nothing else, and
there is no fork if and only if there is no context under the number. -/
theorem forksTakeTheFirstProposal
    {arena : Arena κ}
    (behaviour : Behaviour κ)
    (numbered : arena.Numbered)
    (context : Context κ)
    (self : ContextId)
    (realm : Realm) :
    let remaining := context.program.instructions.drop context.counter
    let made := context.makeChild behaviour self realm
    (∃ asked final,
      InTurn (passOver behaviour context) (remaining.filterMap (·.manipulator)) realm asked final ∧
      ((∀ question ∈ asked, (supply behaviour context question.1 question.2).1 = none) ∧
          made = (⟨{ context with program := ⟨remaining, context.program.visual⟩, counter := 0, parent := some self },
            none⟩, final) ∨
        ∃ instruction position child, Supplied behaviour context remaining asked instruction position child ∧
          made = (⟨{ child with parent := some self }, some position⟩,
            final.emit (.manipulatorSelected instruction.id.text position)))) ∧
    (arena.fork behaviour self realm = none ↔ arena.contains self = false) ∧
    (arena.get? self = some context → ∃ child later, arena.contains child = false ∧
      arena.fork behaviour self realm =
        some (⟨child, made.1.supplier⟩, later,
          made.2.emit (.contextForked self child (later.depth child) made.1.context.program.length)) ∧
      later.get? child = some made.1.context ∧
      later.ids = child :: arena.ids ∧
      ∀ other, other ≠ child → later.get? other = arena.get? other) := by
  intro remaining made
  refine ⟨?_, ?_, ?_⟩
  · obtain ⟨asked, final, inTurn, answer⟩ := consult_inTurn behaviour context 0 remaining realm
    simp only [Nat.zero_add] at answer
    refine ⟨asked, final, inTurn, ?_⟩
    rcases answer with ⟨nothing, answer⟩ | ⟨instruction, position, child, supplied, answer⟩
    · exact .inl ⟨nothing, makeChild_of_none answer⟩
    · exact .inr ⟨instruction, position, child, supplied, makeChild_of_some answer⟩
  · rw [Arena.contains_eq_false_iff]
    cases live : arena.get? self with
    | none => simp [Arena.fork, live]
    | some held => simp [Arena.fork_eq behaviour live realm]
  · intro live
    refine ⟨arena.nextId, (arena.insert made.1.context).2, numbered.contains_nextId, Arena.fork_eq behaviour live realm,
      Arena.get?_insert_self, Arena.ids_insert, ?_⟩
    intro other different
    exact Arena.get?_insert_of_ne different

/-- The first manipulator would have a child but does not want to supply it, the second one wants to but has none, and
the third one supplies a context under a parent of its own: the fourth one is not asked. -/
theorem forksTakeTheFirstProposal_third :
    let program : Program Session.Part := .ofInstructions []
    let parts : List Session.Part :=
      [.fixed "shy" false (some program) 0, .fixed "empty" true none 1,
        .scriptManipulator "own" [.setParent (some 7)] true true, .fixed "late" true (some program) 2]
    let context : Context Session.Part := .ofProgram (.ofInstructions (parts.map fun part =>
      { id := Glyph.marksId, effect := ⟨0, .stub none⟩, observer := none, manipulator := some part }))
    let arena := ((Arena.empty : Arena Session.Part).insert context).2
    let made := context.makeChild Session.Part.behaviour 0 .empty
    arena.Numbered ∧ arena.get? 0 = some context ∧
      made.2.journal = #["should_push:shy", "propose:shy", "should_push:empty", "propose:empty"] ∧
      made.1.supplier = some 2 ∧ made.1.context.parent = some 0 ∧
      ∃ child later, arena.contains child = false ∧
        (arena.fork Session.Part.behaviour 0 .empty).map (fun answer => (answer.1.child, answer.2.1)) =
          some (child, later) ∧
        later.get? child = some made.1.context := by
  intro program parts context arena made
  have numbered : arena.Numbered := (Arena.numbered_withDepth _).insert _
  have live : arena.get? 0 = some context := rfl
  obtain ⟨-, -, forks⟩ := forksTakeTheFirstProposal Session.Part.behaviour numbered context 0 .empty
  obtain ⟨child, later, isNew, forked, stored, -⟩ := forks live
  refine ⟨numbered, live, by decide +kernel, by decide +kernel, by decide +kernel, child, later, isNew, ?_, stored⟩
  rw [forked]
  rfl

end Context

end Spellcast
