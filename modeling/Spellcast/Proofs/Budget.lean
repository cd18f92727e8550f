import Spellcast.Glyph
import Spellcast.Proofs.Simulation

/-!
# Expired suspensions

A suspension that is over is taken away at the start of a tick only, so where ticks begin decides how long a context
holds one. `Context.Alike` compares contexts up to that. A behaviour that does not tell an expired suspension from
none, and does not look at the log, keeps it: this is the simulation on which runs under different budgets rest.
-/

namespace Spellcast

variable {κ : Type} {behaviour : Behaviour κ}

/-- Two suspensions are the same, except that one of them may have been taken away after it expired. -/
inductive Suspension.Alike : Option Suspension → Option Suspension → Prop
  | same (suspension : Option Suspension) : Alike suspension suspension
  | left {suspension : Suspension} : suspension.remaining ≤ 0 → Alike none (some suspension)
  | right {suspension : Suspension} : suspension.remaining ≤ 0 → Alike (some suspension) none

/-- Two contexts are the same, except that an expired suspension may have been taken away from one of them. -/
structure Context.Alike (first second : Context κ) : Prop where
  suspension : Suspension.Alike first.suspension second.suspension
  rest : second = { first with suspension := second.suspension }

/-- Effects, observers and manipulators do not tell contexts apart by an expired suspension, nor realms by what is
logged in them. -/
structure Behaviour.IgnoresExpired (behaviour : Behaviour κ) : Prop where
  cast {first second : Context κ} {realm realm' : Realm} (code : κ) :
    first.Alike second → realm.SameWorld realm' →
      let answer := behaviour.cast code first realm
      let answer' := behaviour.cast code second realm'
      answer'.1 = answer.1 ∧ answer.2.1.Alike answer'.2.1 ∧ answer.2.2.SameWorld answer'.2.2
  notify {first second : Context κ} {realm realm' : Realm} (code : κ) :
    first.Alike second → realm.SameWorld realm' →
      let answer := behaviour.notify code first realm
      let answer' := behaviour.notify code second realm'
      answer'.1 = answer.1 ∧ answer.2.1.Alike answer'.2.1 ∧ answer.2.2.SameWorld answer'.2.2
  wantsPush {first second : Context κ} {realm realm' : Realm} (code : κ) :
    first.Alike second → realm.SameWorld realm' →
      let answer := behaviour.wantsPush code first realm
      let answer' := behaviour.wantsPush code second realm'
      answer'.1 = answer.1 ∧ answer.2.SameWorld answer'.2
  propose {first second : Context κ} {realm realm' : Realm} (code : κ) :
    first.Alike second → realm.SameWorld realm' →
      let answer := behaviour.propose code first realm
      let answer' := behaviour.propose code second realm'
      Option.Rel Context.Alike answer.1 answer'.1 ∧ answer.2.SameWorld answer'.2

namespace Context

variable {first second : Context κ} {realm realm' : Realm}

theorem Alike.refl (context : Context κ) : context.Alike context := ⟨.same _, rfl⟩

/-- Changes that leave the suspension alone keep contexts alike. -/
theorem Alike.map
    (alike : first.Alike second)
    (change : Context κ → Context κ)
    (apart : ∀ (context : Context κ) suspension,
      change { context with suspension } = { change context with suspension }) :
    (change first).Alike (change second) := by
  have kept (context : Context κ) : (change context).suspension = context.suspension := by
    have own := congrArg Context.suspension (apart context context.suspension)
    exact own
  constructor
  · rw [kept, kept]
    exact alike.suspension
  · rw [kept, alike.rest, apart]

theorem Alike.isSuspended
    (alike : first.Alike second) :
    second.isSuspended = first.isSuspended := by
  have suspension := alike.suspension
  generalize isFirst : first.suspension = held at suspension
  generalize isSecond : second.suspension = held' at suspension
  cases suspension with
  | same _ =>
      simp only [Context.isSuspended, isFirst, isSecond]
  | left expired =>
      simp only [Context.isSuspended, isFirst, isSecond, Suspension.isPending, decide_eq_false_iff_not]
      omega
  | right expired =>
      simp only [Context.isSuspended, isFirst, isSecond, Suspension.isPending]
      symm
      rw [decide_eq_false_iff_not]
      omega

theorem Alike.samePlace
    (alike : first.Alike second) :
    first.SamePlace second :=
  ⟨by rw [alike.rest], by rw [alike.rest], by rw [alike.rest], alike.isSuspended⟩

theorem Alike.remainder
    (alike : first.Alike second) :
    second.remainder = first.remainder := by
  rw [Context.remainder, alike.samePlace.program, alike.samePlace.counter, Context.remainder]

/-- A wait that is not over is the same on both sides. -/
theorem Alike.eq_of_suspended
    (alike : first.Alike second)
    (suspended : first.isSuspended = true) :
    second = first := by
  have held := alike.suspension
  have same : second.suspension = first.suspension := by
    generalize isFirst : first.suspension = suspension at held
    generalize isSecond : second.suspension = suspension' at held
    cases held with
    | same _ => rfl
    | left expired =>
        simp [Context.isSuspended, isFirst] at suspended
    | right expired =>
        simp only [Context.isSuspended, isFirst, Suspension.isPending, decide_eq_true_eq] at suspended
        omega
  have rest := alike.rest
  rw [same] at rest
  exact rest

/-- The context without its suspension, unless it will not run anyway. -/
def awake (context : Context κ) : Context κ :=
  if context.canceled then context else { context with suspension := none }

theorem awake_of_canceled
    {context : Context κ}
    (canceled : context.canceled = true) :
    context.awake = context := by
  simp [awake, canceled]

theorem awake_of_running
    {context : Context κ}
    (running : context.canceled = false) :
    context.awake = { context with suspension := none } := by
  simp [awake, running]

theorem roused_of_not_suspended
    {context : Context κ}
    (notSuspended : context.isSuspended = false) :
    context.roused = (context.awake, false) := by
  cases stopped : context.canceled with
  | true =>
      have same : context.rousing = (context.suspension, false) := by simp [rousing, stopped]
      rw [awake_of_canceled stopped, roused, same]
  | false =>
      have due : context.rousing = (none, false) := by
        cases suspended : context.suspension with
        | none =>
            simp [rousing, stopped, suspended]
        | some suspension =>
            have notPending : suspension.isPending = false := by
              simpa [Context.isSuspended, suspended] using notSuspended
            simp [rousing, stopped, suspended, notPending]
      rw [awake_of_running stopped, roused, due]

theorem Alike.awake
    (alike : first.Alike second) :
    first.awake.Alike second.awake := by
  have canceled : second.canceled = first.canceled := alike.samePlace.canceled
  cases stopped : first.canceled with
  | true =>
      rw [awake_of_canceled stopped, awake_of_canceled (canceled.trans stopped)]
      exact alike
  | false =>
      rw [awake_of_running stopped, awake_of_running (canceled.trans stopped)]
      exact ⟨.same none, by rw [alike.rest]⟩

theorem Alike.roused
    (alike : first.Alike second) :
    second.roused.2 = first.roused.2 ∧ first.roused.1.Alike second.roused.1 := by
  cases suspended : first.isSuspended with
  | true =>
      rw [alike.eq_of_suspended suspended]
      exact ⟨rfl, .refl _⟩
  | false =>
      rw [roused_of_not_suspended suspended, roused_of_not_suspended (alike.isSuspended.trans suspended)]
      exact ⟨rfl, alike.awake⟩

theorem cancel_alike
    (ignores : behaviour.IgnoresExpired)
    (alike : first.Alike second)
    (realms : realm.SameWorld realm')
    (reason : CancelReason) :
    (first.cancel behaviour reason realm).1.Alike (second.cancel behaviour reason realm').1 ∧
      (first.cancel behaviour reason realm).2.SameWorld (second.cancel behaviour reason realm').2 := by
  let mark (context : Context κ) : Context κ := { context with canceled := true, cancelReason := some reason }
  have marked : (mark first).Alike (mark second) := alike.map mark fun _ _ => rfl
  let related (first : Context κ) (realm : Realm) (second : Context κ) (realm' : Realm) : Prop :=
    first.Alike second ∧ realm.SameWorld realm'
  have kept : KeptByObservers behaviour related first.remainder.instructions :=
    fun _ _ observer _ _ _ _ _ both => ignores.notify observer both.1 both.2
  obtain ⟨noted, noted', canceled, same, same'⟩ := cancel_related reason alike.remainder kept ⟨marked, realms⟩
  exact ⟨canceled.1, (same.symm.trans canceled.2).trans same'⟩

theorem makeChild_alike
    (ignores : behaviour.IgnoresExpired)
    (alike : first.Alike second)
    (realms : realm.SameWorld realm')
    (self : ContextId) :
    (first.makeChild behaviour self realm).1.context.Alike (second.makeChild behaviour self realm').1.context ∧
      (first.makeChild behaviour self realm).2.SameWorld (second.makeChild behaviour self realm').2 := by
  let related (first : Context κ) (realm : Realm) (second : Context κ) (realm' : Realm) : Prop :=
    first.Alike second ∧ realm.SameWorld realm'
  have unlogged : IgnoresLog related := ⟨fun both same same' => ⟨both.1, (same.symm.trans both.2).trans same'⟩⟩
  have answer (code : κ) : AnswerAlike behaviour related first second code code := by
    constructor
    · intro realm realm' both
      obtain ⟨sameWish, realms⟩ := ignores.wantsPush code alike both.2
      exact ⟨sameWish, alike, realms⟩
    · intro realm realm' both
      obtain ⟨children, realms⟩ := ignores.propose code alike both.2
      refine ⟨⟨alike, realms⟩, ?_⟩
      generalize (behaviour.propose code first realm).1 = child at children ⊢
      generalize (behaviour.propose code second realm').1 = child' at children ⊢
      cases children with
      | none => exact .none
      | some same => exact .some ⟨same, realms⟩
  have answers : List.Forall₂ (fun instruction instruction' : Instruction κ =>
      Option.Rel (AnswerAlike behaviour related first second) instruction.manipulator instruction'.manipulator)
      first.remainder.instructions second.remainder.instructions := by
    rw [alike.remainder]
    refine List.forall₂_same.mpr fun instruction _ => ?_
    cases instruction.manipulator with
    | none => exact .none
    | some code => exact .some (answer code)
  let continued (context : Context κ) : Context κ :=
    { context with program := first.remainder, counter := 0, parent := some self }
  have copies : Alike { first.continuation with parent := some self }
      { second.continuation with parent := some self } := by
    have children : (continued first).Alike (continued second) := alike.map continued fun _ _ => rfl
    have copy : { second.continuation with parent := some self } = continued second := by
      rw [continuation, alike.remainder]
    rw [copy]
    exact children
  exact (makeChild_related unlogged answers (fun both => ⟨copies, both.2⟩)
    (fun both => ⟨both.1.map (fun child => { child with parent := some self }) fun _ _ => rfl, both.2⟩)
    ⟨alike, realms⟩).2

end Context

/-- Contexts that are alike, in realms with the same world, run alike. -/
theorem Behaviour.IgnoresExpired.simulates
    (ignores : behaviour.IgnoresExpired) :
    Simulates behaviour id (· = ·) fun (first : Context κ) realm second realm' =>
      first.Alike second ∧ realm.SameWorld realm' where
  logged related same same' := ⟨related.1, (same.symm.trans related.2).trans same'⟩
  place related := related.1.samePlace.sameView id
  cast {_ _ _ _ instruction instruction'} related _ _ same := by
    have same : instruction' = instruction := same
    subst same
    exact ignores.cast _ (related.1.map Context.stepped fun _ _ => rfl) related.2
  roused related := ⟨related.1.roused.1, related.1.roused.2, related.2⟩
  stopped related := ⟨related.1.map Context.stopped fun _ _ => rfl, related.2⟩
  child related same := by
    subst same
    obtain ⟨children, realms⟩ := Context.makeChild_alike ignores related.1 related.2 _
    exact ⟨⟨related.1, realms⟩, children, realms⟩
  left related childRelated := ⟨childRelated.1, (Context.cancel_alike ignores related.1 related.2 .newContext).2⟩
  next same := by rw [same]

/-- Glyphs look at no suspension at all. -/
theorem Glyph.behaviour_ignoresExpired : Glyph.behaviour.IgnoresExpired where
  cast {first second realm realm'} glyph alike realms := by
    have place := alike.samePlace
    cases glyph with
    | jump strength =>
        refine ⟨rfl, alike, ?_⟩
        have caster : second.caster = first.caster := by rw [alike.rest]
        have site : second.site = first.site := by rw [alike.rest]
        have target (world : World) : second.resolveCaster world = first.resolveCaster world := by
          simp only [Context.resolveCaster, Context.caster?, Context.site?, caster, site]
        simp only [Glyph.behaviour, Glyph.cast, castJump, target, realms.world]
        exact ⟨rfl, realms.cells, realms.journal⟩
    | delay ticks =>
        refine ⟨?_, ?_, realms⟩
        · simp only [Glyph.behaviour, Glyph.cast, castDelay, place.program, place.counter]
          split
          · rfl
          · rfl
        · simp only [Glyph.behaviour, Glyph.cast, castDelay, place.program, place.counter]
          split
          · exact alike
          · refine ⟨.same _, ?_⟩
            rw [alike.rest]
            rfl
    | mark counter =>
        have attachments : second.attachments = first.attachments := by rw [alike.rest]
        rcases found : first.attachments.getOrInsert realm.cells counter (.tally 0) with ⟨answer, stored, cells⟩
        simp only [Glyph.behaviour, Glyph.cast, castMark, attachments, realms.cells, found]
        refine ⟨trivial, ?_, ?_⟩
        · exact alike.map
            (fun context =>
              { context with
                attachments := stored, tag := Fields.insert lastMarkKey (.nat (context.counter - 1)) context.tag })
            fun _ _ => rfl
        · cases answer with
          | ok cell => exact ⟨realms.world, rfl, realms.journal⟩
          | error fault => exact ⟨realms.world, rfl, realms.journal⟩
    | ward => exact ⟨rfl, alike, realms⟩
    | echo id times => exact ⟨rfl, alike, realms⟩
  notify {first second realm realm'} glyph alike realms := by
    cases glyph with
    | ward =>
        have reason : second.cancelReason = first.cancelReason := by rw [alike.rest]
        simp only [Glyph.behaviour, Glyph.notify, absorb, reason]
        split
        · exact ⟨rfl, alike, realms⟩
        · exact ⟨rfl, alike, realms⟩
        · next reason _ _ =>
          exact ⟨rfl, alike.map
            (fun context =>
              { context with
                cancelReason := first.cancelReason, tag := Fields.insert wardedKey (.text reason.text) context.tag })
            fun _ _ => rfl, realms⟩
    | jump strength => exact ⟨rfl, alike, realms⟩
    | delay ticks => exact ⟨rfl, alike, realms⟩
    | mark counter => exact ⟨rfl, alike, realms⟩
    | echo id times => exact ⟨rfl, alike, realms⟩
  wantsPush _ _ realms := ⟨rfl, realms⟩
  propose {first second realm realm'} glyph alike realms := by
    refine ⟨?_, realms⟩
    cases glyph with
    | echo id times =>
        simp only [Glyph.behaviour, Glyph.propose, alike.remainder]
        cases unroll? id times first.remainder with
        | none => exact .none
        | some program =>
            exact .some (alike.map (fun context => { context with program, counter := 0 }) fun _ _ => rfl)
    | jump strength => exact .none
    | delay ticks => exact .none
    | mark counter => exact .none
    | ward => exact .none

end Spellcast
