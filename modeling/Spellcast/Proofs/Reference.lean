import Mathlib.Algebra.GroupWithZero.Nat
import Mathlib.Data.List.TakeDrop
import Mathlib.Data.List.TakeWhile
import Spellcast.Context

/-!
# The reference run of a standard program

What a program of standard instructions means, without contexts, arenas or ticks: its instructions run from first to
last, and a delay with something behind it goes on in a new context in which the first echo has been unrolled.
`reference` does this with a number of forks left and answers an `Account` of what ran in which context.
-/

namespace Spellcast

variable {κ : Type}

namespace Instruction

def isDelay (instruction : Instruction κ) : Bool := instruction.id.path == "glyph_delay"

def isEcho (instruction : Instruction κ) : Bool := instruction.id.path == "glyph_echo"

end Instruction

/-- What a new context has to run: everything behind the first echo comes twice and the echo itself not at all. -/
def unrolled : List (Instruction κ) → List (Instruction κ)
  | instructions =>
    match instructions.span (!·.isEcho) with
    | (_, []) => instructions
    | (before, _ :: after) => before ++ after ++ after

theorem span_append_cons
    {α : Type}
    {test : α → Bool}
    {before after : List α}
    {item : α}
    (passes : ∀ first ∈ before, test first = true)
    (stop : test item = false) :
    (before ++ item :: after).span test = (before, item :: after) := by
  rw [List.span_eq_takeWhile_dropWhile, List.takeWhile_append_of_pos passes, List.dropWhile_append_of_pos passes]
  simp [stop]

theorem unrolled_append_cons
    {before after : List (Instruction κ)}
    {echo : Instruction κ}
    (noEcho : ∀ instruction ∈ before, instruction.isEcho = false)
    (isEcho : echo.isEcho = true) :
    unrolled (before ++ echo :: after) = before ++ after ++ after := by
  have passed : ∀ instruction ∈ before, (!instruction.isEcho) = true := by
    intro instruction member
    simp [noEcho instruction member]
  have stop : (!echo.isEcho) = false := by simp [isEcho]
  rw [unrolled, span_append_cons passed stop]

theorem unrolled_of_no_echo
    {instructions : List (Instruction κ)}
    (noEcho : ∀ instruction ∈ instructions, instruction.isEcho = false) :
    unrolled instructions = instructions := by
  have consumed : instructions.dropWhile (!·.isEcho) = [] := by
    rw [List.dropWhile_eq_nil_iff]
    intro instruction member
    simp [noEcho instruction member]
  rw [unrolled, List.span_eq_takeWhile_dropWhile, consumed]

/-- A list either has no echo or splits at its first one. -/
theorem no_echo_or_split (instructions : List (Instruction κ)) :
    (∀ instruction ∈ instructions, instruction.isEcho = false) ∨
      ∃ before echo after, instructions = before ++ echo :: after ∧
        (∀ instruction ∈ before, instruction.isEcho = false) ∧ echo.isEcho = true := by
  induction instructions with
  | nil =>
      left
      intro instruction member
      exact absurd member List.not_mem_nil
  | cons head tail inductionHypothesis =>
      cases isEcho : head.isEcho with
      | true =>
          right
          exact ⟨[], head, tail, rfl, fun _ member => absurd member List.not_mem_nil, isEcho⟩
      | false =>
          rcases inductionHypothesis with noEcho | ⟨before, echo, after, split, noEcho, found⟩
          · left
            intro instruction member
            rcases List.mem_cons.mp member with same | later
            · exact same ▸ isEcho
            · exact noEcho instruction later
          · right
            refine ⟨head :: before, echo, after, by rw [split, List.cons_append], ?_, found⟩
            intro instruction member
            rcases List.mem_cons.mp member with same | later
            · exact same ▸ isEcho
            · exact noEcho instruction later

theorem mem_of_mem_unrolled
    {instructions : List (Instruction κ)}
    {instruction : Instruction κ}
    (member : instruction ∈ unrolled instructions) :
    instruction ∈ instructions := by
  rcases no_echo_or_split instructions with noEcho | ⟨before, echo, after, split, noEcho, isEcho⟩
  · rwa [unrolled_of_no_echo noEcho] at member
  · rw [split, unrolled_append_cons noEcho isEcho] at member
    rw [split]
    simp only [List.mem_append, List.mem_cons] at member ⊢
    rcases member with (first | second) | third
    · exact .inl first
    · exact .inr (.inr second)
    · exact .inr (.inr third)

/-- What a run has done: the instructions that ran in its first context and in each further one, and whether it was
stopped because it had no forks left. -/
structure Account (κ : Type) where
  first : List (Instruction κ)
  further : List (List (Instruction κ))
  stopped : Bool

namespace Account

def ran (instruction : Instruction κ) (account : Account κ) : Account κ :=
  { account with first := instruction :: account.first }

/-- The account of a run that starts with an instruction and moves into a new context. -/
def moved (instruction : Instruction κ) (account : Account κ) : Account κ :=
  { account with first := [instruction], further := account.first :: account.further }

def contexts (account : Account κ) : List (List (Instruction κ)) := account.first :: account.further

def executed (account : Account κ) : List (Instruction κ) := account.contexts.flatten

def forks (account : Account κ) : Nat := account.further.length

/-- The ticks in which a context runs, when so many instructions run in a tick: at least one. -/
def turns (budget : Nat) (instructions : List (Instruction κ)) : Nat :=
  max 1 ((instructions.length + budget - 1) / budget)

/-- The ticks that a run takes: those of all contexts, and nineteen more for each fork. -/
def ticks (budget : Nat) (account : Account κ) : Nat :=
  (account.contexts.map (turns budget)).sum + 19 * account.forks

/-- Why the run ended, if it did not run to its end. -/
def reason (account : Account κ) : Option CancelReason :=
  if account.stopped then some .terminated else none

end Account

/-- Runs instructions up to the first delay with something behind it, and goes on from there as told. -/
def walkTo (goOn : Instruction κ → List (Instruction κ) → Account κ) : List (Instruction κ) → Account κ
  | [] => ⟨[], [], false⟩
  | instruction :: rest =>
    if instruction.isDelay && !rest.isEmpty then goOn instruction rest
    else (walkTo goOn rest).ran instruction

/-- The reference run with so many forks left. -/
def reference : Nat → List (Instruction κ) → Account κ
  | 0 => walkTo fun delay _ => ⟨[delay], [], true⟩
  | forks + 1 => walkTo fun delay rest => (reference forks (unrolled rest)).moved delay

section reference

variable {forks budget : Nat} {instruction : Instruction κ} {rest : List (Instruction κ)}

theorem reference_nil : reference forks ([] : List (Instruction κ)) = ⟨[], [], false⟩ := by
  cases forks with
  | zero => rfl
  | succ forks => rfl

theorem reference_ran
    (goesOn : (instruction.isDelay && !rest.isEmpty) = false) :
    reference forks (instruction :: rest) = (reference forks rest).ran instruction := by
  cases forks with
  | zero => simp [reference, walkTo, goesOn]
  | succ forks => simp [reference, walkTo, goesOn]

theorem reference_stopped
    (delays : (instruction.isDelay && !rest.isEmpty) = true) :
    reference 0 (instruction :: rest) = ⟨[instruction], [], true⟩ := by
  simp [reference, walkTo, delays]

theorem reference_moved
    (delays : (instruction.isDelay && !rest.isEmpty) = true) :
    reference (forks + 1) (instruction :: rest) = (reference forks (unrolled rest)).moved instruction := by
  simp [reference, walkTo, delays]

theorem reference_first_ne_nil :
    (reference forks (instruction :: rest)).first ≠ [] := by
  cases delays : instruction.isDelay && !rest.isEmpty with
  | false =>
      rw [reference_ran delays]
      exact List.cons_ne_nil _ _
  | true =>
      cases forks with
      | zero =>
          rw [reference_stopped delays]
          exact List.cons_ne_nil _ _
      | succ forks =>
          rw [reference_moved delays]
          exact List.cons_ne_nil _ _

end reference

namespace Account

variable {budget : Nat} {instructions : List (Instruction κ)} {account : Account κ}

theorem turns_of_le
    (fits : instructions.length ≤ budget) :
    turns budget instructions = 1 := by
  rcases Nat.eq_zero_or_pos budget with zero | positive
  · simp [turns, zero]
  · have less : (instructions.length + budget - 1) / budget < 2 := by
      rw [Nat.div_lt_iff_lt_mul positive]
      omega
    rw [turns]
    omega

theorem turns_of_lt
    (positive : 0 < budget)
    (longer : budget < instructions.length) :
    turns budget instructions = 1 + turns budget (instructions.drop budget) := by
  have shifted :
      instructions.length + budget - 1 = (instructions.length - budget + budget - 1) + budget := by
    omega
  have another : 1 ≤ (instructions.length - budget + budget - 1) / budget := by
    rw [Nat.le_div_iff_mul_le positive]
    omega
  rw [turns, turns, List.length_drop, shifted, Nat.add_div_right _ positive]
  omega

theorem ticks_pos
    (account : Account κ)
    (budget : Nat) :
    0 < account.ticks budget := by
  have first : 1 ≤ turns budget account.first := Nat.le_max_left _ _
  simp only [ticks, contexts, List.map_cons, List.sum_cons]
  omega

theorem ticks_moved
    {next : List (Instruction κ)}
    {further : List (List (Instruction κ))}
    {stopped : Bool} :
    ticks budget ⟨instructions, next :: further, stopped⟩ =
      turns budget instructions + 19 + ticks budget ⟨next, further, stopped⟩ := by
  simp only [ticks, contexts, forks, List.map_cons, List.sum_cons, List.length_cons]
  omega

theorem ticks_of_le
    {stopped : Bool}
    (fits : instructions.length ≤ budget) :
    ticks budget ⟨instructions, [], stopped⟩ = 1 := by
  simp [ticks, contexts, forks, turns_of_le fits]

/-- Running for a tick takes a tick off the account. -/
theorem ticks_drop
    (positive : 0 < budget)
    (longer : budget < account.first.length) :
    account.ticks budget = 1 + ({ account with first := account.first.drop budget } : Account κ).ticks budget := by
  simp only [ticks, contexts, forks, List.map_cons, List.sum_cons, turns_of_lt positive longer]
  omega

end Account

end Spellcast
