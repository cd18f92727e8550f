import Spellcast.Proofs.Asking
import Spellcast.Proofs.Standard

/-!
# Echoes

A fork in front of an echo goes on in a child in which everything behind the echo is replayed, whatever else is behind
it and whatever state the forked context is in. An echo that replays nothing lets the fork pass over it.
-/

namespace Spellcast

variable {κ : Type}

theorem take_drop_copies
    {α : Type}
    {times copy : Nat}
    (listed : copy < times)
    (list : List α) :
    ((List.replicate times list).flatten.drop (copy * list.length)).take list.length = list := by
  induction times generalizing copy with
  | zero =>
      exact absurd listed (Nat.not_lt_zero copy)
  | succ times inductionHypothesis =>
      rw [List.replicate_succ, List.flatten_cons]
      cases copy with
      | zero =>
          rw [Nat.zero_mul, List.drop_zero, List.take_left]
      | succ copy =>
          rw [Nat.succ_mul, Nat.add_comm, List.drop_length_add_append]
          exact inductionHypothesis (Nat.lt_of_succ_lt_succ listed)

theorem Session.Part.behaviour_carries : Session.Part.behaviour.Carries .glyph :=
  ⟨fun _ _ _ => rfl, fun _ _ _ => rfl, fun _ _ _ => rfl, fun _ _ _ => rfl⟩

namespace Context

variable {behaviour : Behaviour κ} {embed : Glyph → κ} {context : Context κ} {before after : List (Instruction κ)}
  {echo : Instruction κ}

theorem supply_of_no_times
    (carries : behaviour.Carries embed)
    (context : Context κ)
    (id : Identifier)
    (realm : Realm) :
    supply behaviour context (embed (.echo id 0)) realm = (none, realm) := by
  simp [supply, carries.wantsPush, carries.propose, Glyph.wantsPush]

theorem consult_of_no_times
    (carries : behaviour.Carries embed)
    (split : context.ahead = before ++ echo :: after)
    (silent : ∀ instruction ∈ before, instruction.manipulator = none)
    (manipulates : echo.manipulator = some (embed (.echo echo.id 0)))
    (realm : Realm) :
    consult behaviour context 0 context.remainder.instructions realm =
      consult behaviour context (before.length + 1) after realm := by
  change consult behaviour context 0 context.ahead realm = _
  rw [split, consult_append behaviour context silent, Nat.zero_add, consult_cons manipulates,
    supply_of_no_times carries]

/-- An echo without a manipulator or an instruction of its name in front of it. A fork makes a child that runs what is
in front of the echo and then, so many times, what is behind it; all else but the counter and the parent is as it was.
With no times the fork asks the manipulators behind the echo as though the echo were not there, and if none of them
supplies a child it goes on with everything that remains, the echo included. -/
theorem echoesReplayWhatFollows
    {times : Nat}
    (carries : behaviour.Carries embed)
    (arena : Arena κ)
    (context : Context κ)
    (remains : context.remainder.instructions = before ++ [echo] ++ after)
    (manipulates : echo.manipulator = some (embed (.echo echo.id times)))
    (alone : ∀ instruction ∈ before, instruction.manipulator = none ∧ instruction.id ≠ echo.id)
    (self : ContextId)
    (realm : Realm) :
    let made := context.makeChild behaviour self realm
    (0 < times →
      let replayed := before ++ (List.replicate times after).flatten
      made =
        (⟨{ context with program := ⟨replayed, context.program.visual⟩, counter := 0, parent := some self },
          some before.length⟩, realm.emit (.manipulatorSelected echo.id.text before.length)) ∧
      replayed.length = before.length + times * after.length ∧
      (∀ copy < times, (replayed.drop (before.length + copy * after.length)).take after.length = after) ∧
      ∀ test, replayed.countP test = before.countP test + times * after.countP test) ∧
    (times = 0 →
      made.1.supplier ≠ some before.length ∧
      ∃ asked final, InTurn (passOver behaviour context) (after.filterMap (·.manipulator)) realm asked final ∧
        ((∀ question ∈ asked, (supply behaviour context question.1 question.2).1 = none) ∧
            made =
              (⟨{ context with program := ⟨before ++ [echo] ++ after, context.program.visual⟩, counter := 0
                               parent := some self }, none⟩, final) ∨
          ∃ instruction position child, Supplied behaviour context after asked instruction position child ∧
            made = (⟨{ child with parent := some self }, some (before.length + 1 + position)⟩,
              final.emit (.manipulatorSelected instruction.id.text (before.length + 1 + position))))) ∧
    (arena.get? self = some context → ∃ child later,
      arena.fork behaviour self realm =
        some (⟨child, made.1.supplier⟩, later,
          made.2.emit (.contextForked self child (later.depth child) made.1.context.program.length)) ∧
      later.get? child = some made.1.context) := by
  intro made
  have split : context.ahead = before ++ echo :: after := by
    rw [ahead, remains, List.append_assoc, List.singleton_append]
  have silent : ∀ instruction ∈ before, instruction.manipulator = none := fun _ member => (alone _ member).1
  have absent : ∀ instruction ∈ before, instruction.id ≠ echo.id := fun _ member => (alone _ member).2
  refine ⟨?_, ?_, ?_⟩
  · intro replays replayed
    refine ⟨makeChild_of_echo carries split silent absent manipulates replays self realm, ?_, ?_, ?_⟩
    · simp [replayed]
    · intro copy listed
      rw [List.drop_length_add_append]
      exact take_drop_copies listed after
    · intro test
      simp [replayed, List.countP_flatten]
  · rintro rfl
    obtain ⟨asked, final, inTurn, ⟨nothing, answer⟩ | ⟨instruction, position, child, supplied, answer⟩⟩ :=
      consult_inTurn behaviour context (before.length + 1) after realm
    · rw [← consult_of_no_times carries split silent manipulates] at answer
      have default : made = (⟨{ context.continuation with parent := some self }, none⟩, final) :=
        makeChild_of_none answer
      refine ⟨by simp [default], asked, final, inTurn, .inl ⟨nothing, ?_⟩⟩
      rw [default, continuation, ← remains]
      rfl
    · rw [← consult_of_no_times carries split silent manipulates] at answer
      have chosen :
          made = (⟨{ child with parent := some self }, some (before.length + 1 + position)⟩,
            final.emit (.manipulatorSelected instruction.id.text (before.length + 1 + position))) :=
        makeChild_of_some answer
      refine ⟨?_, asked, final, inTurn, .inr ⟨instruction, position, child, supplied, chosen⟩⟩
      intro same
      rw [chosen] at same
      have position_eq : before.length + 1 + position = before.length := Option.some.inj same
      omega
  · intro live
    exact ⟨arena.nextId, (arena.insert made.1.context).2, Arena.fork_eq behaviour live realm, Arena.get?_insert_self⟩

/-- A suspended context stands in front of an echo, with a delay and an echo of the same name behind it: three times
make three delays and three of the inner echoes. With no times and only the delay behind it the echo stays. -/
theorem echoesReplayWhatFollows_nested :
    let delay : Instruction Session.Part := Glyph.instruction .glyph 0 Glyph.delayId (.delay 20)
    let mark : Instruction Session.Part := Glyph.instruction .glyph 1 Glyph.marksId (.mark Glyph.marksId)
    let echo (times : Nat) : Instruction Session.Part :=
      Glyph.instruction .glyph 2 Glyph.echoId (.echo Glyph.echoId times)
    let waiting (after : List (Instruction Session.Part)) : Context Session.Part :=
      { Context.ofProgram (.ofInstructions ([delay, mark] ++ after)) with counter := 1, suspension := some ⟨5⟩ }
    let thrice := (waiting [echo 3, delay, echo 2]).makeChild Session.Part.behaviour 0 .empty
    let never := (waiting [echo 0, delay]).makeChild Session.Part.behaviour 0 .empty
    thrice.1.supplier = some 1 ∧ thrice.1.context.suspension = some ⟨5⟩ ∧ thrice.1.context.parent = some 0 ∧
      thrice.1.context.program.instructions =
        [mark, delay, echo 2, delay, echo 2, delay, echo 2] ∧
      never.1.supplier = none ∧ never.1.context.program.instructions = [mark, echo 0, delay] := by
  intro delay mark echo waiting thrice never
  have alone : ∀ instruction ∈ [mark], instruction.manipulator = none ∧ instruction.id ≠ Glyph.echoId := by
    intro instruction member
    rw [List.mem_singleton.mp member]
    exact ⟨rfl, by decide⟩
  have thriceRemains :
      (waiting [echo 3, delay, echo 2]).remainder.instructions = [mark] ++ [echo 3] ++ [delay, echo 2] := rfl
  have neverRemains : (waiting [echo 0, delay]).remainder.instructions = [mark] ++ [echo 0] ++ [delay] := rfl
  obtain ⟨replayed, -, -⟩ :=
    echoesReplayWhatFollows Session.Part.behaviour_carries .empty _ thriceRemains rfl alone 0 .empty
  obtain ⟨-, passed, -⟩ :=
    echoesReplayWhatFollows Session.Part.behaviour_carries .empty _ neverRemains rfl alone 0 .empty
  have thriceMade := (replayed (by decide)).1
  obtain ⟨-, asked, final, inTurn, ⟨-, neverMade⟩ | ⟨_, _, _, supplied, -⟩⟩ := passed rfl
  · have thriceChild := congrArg Prod.fst thriceMade
    have neverChild := congrArg Prod.fst neverMade
    rw [thriceChild, neverChild]
    exact ⟨rfl, rfl, rfl, rfl, rfl, rfl⟩
  · -- The delay behind the echo is no manipulator, so there was nobody to supply a child.
    have nobody : (asked.map (·.1)).length ≤ 0 := inTurn.order.length_le
    have somebody := supplied.passed
    rw [List.length_map] at nobody
    omega

end Context

end Spellcast
