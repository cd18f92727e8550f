import Mathlib.Algebra.GroupWithZero.Nat
import Mathlib.Data.List.Basic
import Mathlib.Algebra.BigOperators.Group.List.Basic

/-!
# Blocks of delays

Whether a standard program comes to an end depends only on how many delays it has before its first echo, between one
echo and the next, and behind the last one: its blocks. A fork takes a delay from the first block that has one and
doubles what is behind the next echo. `Endless` says of blocks that there will always be a delay to fork at, `Ends` that
there will be none after some forks, and either one or the other holds.
-/

namespace Spellcast.Blocks

variable {more count : Nat} {first second blocks behind : List Nat}

/-- The blocks with more delays in the first one. -/
def raised (count : Nat) : List Nat → List Nat
  | [] => [count]
  | first :: rest => (count + first) :: rest

/-- The blocks of one program followed by another: the last block of the one and the first of the other become one. -/
def joined : List Nat → List Nat → List Nat
  | [], second => second
  | [last], second => raised last second
  | head :: next :: tail, second => head :: joined (next :: tail) second

/-- The blocks after a fork, of what is behind the delay that asked for it: the first block has so many more delays,
and then come the blocks behind the next echo, if there is one, twice. -/
def forked (more : Nat) (behind : List Nat) : List Nat := joined (raised more behind) behind

theorem joined_cons
    (nonempty : first ≠ [])
    (count : Nat)
    (second : List Nat) :
    joined (count :: first) second = count :: joined first second := by
  cases first with
  | nil => exact absurd rfl nonempty
  | cons next tail => rfl

theorem raised_zero
    (nonempty : blocks ≠ []) :
    raised 0 blocks = blocks := by
  cases blocks with
  | nil => exact absurd rfl nonempty
  | cons next rest => rw [raised, Nat.zero_add]

theorem raised_ne_nil : raised count blocks ≠ [] := by
  cases blocks with
  | nil => exact List.cons_ne_nil _ _
  | cons next rest => exact List.cons_ne_nil _ _

theorem joined_raised
    (nonempty : first ≠ []) :
    joined (raised count first) second = raised count (joined first second) := by
  cases first with
  | nil => exact absurd rfl nonempty
  | cons last tail =>
      cases tail with
      | cons next rest => rfl
      | nil =>
          cases second with
          | nil => rfl
          | cons next rest => simp only [raised, joined, Nat.add_assoc]

theorem joined_append_singleton
    (before : List Nat)
    (last next : Nat)
    (rest : List Nat) :
    joined (before ++ [last]) (next :: rest) = before ++ (last + next) :: rest := by
  induction before with
  | nil =>
      rfl
  | cons head tail inductionHypothesis =>
      cases tail with
      | nil => rfl
      | cons second tail => exact congrArg (head :: ·) inductionHypothesis

/-- Joining blocks that start with an empty one is appending the others. -/
theorem joined_zero_cons
    (nonempty : first ≠ []) :
    joined first (0 :: second) = first ++ second := by
  rw [← List.dropLast_append_getLast nonempty, joined_append_singleton, Nat.add_zero]
  simp

theorem forked_nil : forked more [] = [more] := rfl

theorem forked_zero_cons : forked more (0 :: behind) = more :: (behind ++ behind) :=
  joined_zero_cons (List.cons_ne_nil _ _)

theorem forked_cons_append
    (before : List Nat)
    (last : Nat) :
    forked more (count :: (before ++ [last])) =
      (more + count) :: (before ++ (last + count) :: (before ++ [last])) :=
  joined_append_singleton ((more + count) :: before) last count (before ++ [last])

/-- There will always be another delay to fork at. Behind the first delay there are at least two echoes, and a delay
behind the first of these; and besides there is another delay before the first of these echoes, or one before the last
echo, or there are at least three echoes and two delays. -/
def Endless : List Nat → Prop
  | [] => False
  | 0 :: blocks => Endless blocks
  | (more + 1) :: behind =>
    2 ≤ behind.length ∧ 0 < behind.sum ∧
      (0 < more ∨ 0 < behind.dropLast.sum ∨ (2 < behind.length ∧ 1 < behind.sum))

instance decidableEndless : (blocks : List Nat) → Decidable (Endless blocks)
  | [] => inferInstanceAs (Decidable False)
  | 0 :: blocks => decidableEndless blocks
  | (more + 1) :: behind =>
    inferInstanceAs (Decidable (2 ≤ behind.length ∧ 0 < behind.sum ∧
      (0 < more ∨ 0 < behind.dropLast.sum ∨ (2 < behind.length ∧ 1 < behind.sum))))

theorem endless_succ_cons :
    Endless ((more + 1) :: behind) ↔
      2 ≤ behind.length ∧ 0 < behind.sum ∧
        (0 < more ∨ 0 < behind.dropLast.sum ∨ (2 < behind.length ∧ 1 < behind.sum)) :=
  Iff.rfl

/-- Blocks with a delay are endless if there is enough behind them. -/
theorem endless_append
    (delays : 0 < first.sum)
    (long : 2 ≤ second.length)
    (later : 0 < second.sum)
    (enough : 0 < second.dropLast.sum ∨ 1 < first.sum) :
    Endless (first ++ second) := by
  induction first with
  | nil =>
      exact absurd delays (Nat.lt_irrefl 0)
  | cons head tail inductionHypothesis =>
      cases head with
      | zero =>
          rw [List.sum_cons, Nat.zero_add] at delays enough
          exact inductionHypothesis delays enough
      | succ more =>
          have notNil : second ≠ [] := List.ne_nil_of_length_pos (Nat.lt_of_lt_of_le Nat.zero_lt_two long)
          have before : (tail ++ second).dropLast.sum = tail.sum + second.dropLast.sum := by
            rw [List.dropLast_append_of_ne_nil notNil, List.sum_append]
          rw [List.sum_cons] at enough
          rw [List.cons_append]
          refine endless_succ_cons.mpr ⟨?_, ?_, ?_⟩
          · rw [List.length_append]
            omega
          · rw [List.sum_append]
            omega
          · rw [before]
            omega

/-- The blocks after a fork of endless blocks are endless again. -/
theorem Endless.fork
    (endless : Endless ((more + 1) :: behind)) :
    Endless (forked more behind) := by
  obtain ⟨long, delays, enough⟩ := endless_succ_cons.mp endless
  cases behind with
  | nil =>
      exact absurd long (by decide)
  | cons count later =>
      rcases List.eq_nil_or_concat' later with rfl | ⟨before, last, rfl⟩
      · exact absurd long (by simp)
      · have length : (count :: (before ++ [last])).length = before.length + 2 := by simp
        have sum : (count :: (before ++ [last])).sum = count + (before.sum + last) := by simp
        have inner : (count :: (before ++ [last])).dropLast.sum = count + before.sum := by
          rw [← List.cons_append, List.dropLast_concat, List.sum_cons]
        have empty : before.length = 0 → before.sum = 0 := by
          intro short
          rw [List.length_eq_zero_iff.mp short, List.sum_nil]
        rw [sum] at delays
        rw [length, sum, inner] at enough
        rw [forked_cons_append]
        cases lead : more + count with
        | zero =>
            -- the first block has become empty, and what is behind it comes twice
            have noCount : count = 0 := by omega
            have again :
                before ++ (last + count) :: (before ++ [last]) = (before ++ [last]) ++ (before ++ [last]) := by
              simp [noCount]
            rw [again]
            refine endless_append ?_ ?_ ?_ ?_
            · simp
              omega
            · simp
              omega
            · simp
              omega
            · rw [List.dropLast_concat, List.sum_append, List.sum_singleton]
              omega
        | succ less =>
            have doubled :
                before ++ (last + count) :: (before ++ [last]) = (before ++ (last + count) :: before) ++ [last] := by
              simp
            rw [doubled]
            refine endless_succ_cons.mpr ⟨?_, ?_, ?_⟩
            · simp
              omega
            · simp
              omega
            · rw [List.dropLast_concat, List.sum_append, List.sum_cons]
              omega

/-- There will be no delay to fork at after some forks. -/
inductive Ends : List Nat → Prop
  | nil : Ends []
  | skip {blocks : List Nat} : Ends blocks → Ends (0 :: blocks)
  | fork {more : Nat} {behind : List Nat} : Ends (forked more behind) → Ends ((more + 1) :: behind)

theorem ends_singleton (count : Nat) : Ends [count] := by
  induction count with
  | zero =>
      exact .skip .nil
  | succ count inductionHypothesis =>
      exact .fork inductionHypothesis

theorem ends_pair (first second : Nat) : Ends [first, second] := by
  cases first with
  | zero =>
      exact .skip (ends_singleton second)
  | succ more =>
      exact .fork (ends_singleton (more + second + second))

theorem ends_replicate_append
    (ends : Ends blocks)
    (zeros : Nat) :
    Ends (List.replicate zeros 0 ++ blocks) := by
  induction zeros with
  | zero =>
      exact ends
  | succ zeros inductionHypothesis =>
      exact .skip inductionHypothesis

theorem eq_replicate_of_sum_eq_zero
    (noDelays : blocks.sum = 0) :
    blocks = List.replicate blocks.length 0 := by
  induction blocks with
  | nil =>
      rfl
  | cons count rest inductionHypothesis =>
      rw [List.sum_cons, Nat.add_eq_zero_iff] at noDelays
      obtain ⟨rfl, noDelaysLater⟩ := noDelays
      exact congrArg (0 :: ·) (inductionHypothesis noDelaysLater)

/-- Without delays behind the first echo the first block is worn down. -/
theorem ends_of_sum_eq_zero
    (noDelays : behind.sum = 0) :
    Ends (count :: behind) := by
  induction count generalizing behind with
  | zero =>
      have echoes := ends_replicate_append .nil behind.length
      rw [List.append_nil, ← eq_replicate_of_sum_eq_zero noDelays] at echoes
      exact .skip echoes
  | succ more inductionHypothesis =>
      cases behind with
      | nil =>
          exact ends_singleton (more + 1)
      | cons first rest =>
          rw [List.sum_cons, Nat.add_eq_zero_iff] at noDelays
          obtain ⟨rfl, noDelaysLater⟩ := noDelays
          refine .fork ?_
          rw [forked_zero_cons]
          exact inductionHypothesis (by rw [List.sum_append, noDelaysLater])

/-- A delay, echoes and a last delay: each fork takes one echo away. -/
theorem ends_delay_echoes_delay (zeros : Nat) :
    Ends (1 :: (List.replicate zeros 0 ++ [1])) := by
  induction zeros with
  | zero =>
      exact ends_pair 1 1
  | succ zeros inductionHypothesis =>
      refine .fork ?_
      rw [List.replicate_succ, List.cons_append, forked_zero_cons, List.append_assoc]
      exact .skip (ends_replicate_append inductionHypothesis zeros)

/-- Blocks are endless, or they run out of delays. -/
theorem endless_or_ends (blocks : List Nat) : Endless blocks ∨ Ends blocks := by
  induction blocks with
  | nil =>
      exact .inr .nil
  | cons count behind inductionHypothesis =>
      cases count with
      | zero =>
          rcases inductionHypothesis with endless | ends
          · exact .inl endless
          · exact .inr (.skip ends)
      | succ more =>
          by_cases endless : Endless ((more + 1) :: behind)
          · exact .inl endless
          right
          -- what is not endless has no echo, no delay behind the first echo, only one echo, or is one of the two below
          rw [endless_succ_cons] at endless
          rcases List.eq_nil_or_concat' behind with rfl | ⟨before, last, rfl⟩
          · exact ends_singleton (more + 1)
          by_cases noDelays : (before ++ [last]).sum = 0
          · exact ends_of_sum_eq_zero noDelays
          cases before with
          | nil =>
              exact ends_pair (more + 1) last
          | cons second between =>
              -- all delays but the first are behind the last echo, and they or the echoes are few
              rw [List.dropLast_concat] at endless
              simp only [List.length_append, List.length_cons, List.length_nil, List.sum_append, List.sum_cons,
                List.sum_nil] at endless noDelays
              have noMore : more = 0 := by omega
              have noSecond : second = 0 := by omega
              have noneBetween : between.sum = 0 := by omega
              have few : between.length = 0 ∨ last = 1 := by omega
              subst noMore noSecond
              rcases few with noEcho | oneDelay
              · rw [List.length_eq_zero_iff.mp noEcho]
                exact .fork (.skip (ends_pair last last))
              · rw [eq_replicate_of_sum_eq_zero noneBetween, oneDelay]
                exact ends_delay_echoes_delay (between.length + 1)

end Spellcast.Blocks
