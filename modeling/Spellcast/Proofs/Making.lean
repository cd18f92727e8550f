import Spellcast.Proofs.Turn
import Spellcast.Session.Part

/-!
# How contexts come about

Effects, observers and manipulators change contexts by the operations that are open to everyone. These mark a context as
canceled together with the reason, or take the mark away and leave the reason behind. So whatever happens to a context,
it is never canceled without a reason.
-/

namespace Spellcast

variable {κ : Type} {behaviour : Behaviour κ}

/-- The contexts that the operations on contexts can make. -/
inductive Context.Made : Context κ → Prop
  | ofProgram (program : Program κ) : Made (.ofProgram program)
  /-- A context is marked as canceled for a reason. -/
  | marked {context : Context κ} (reason : CancelReason) :
      Made context → Made { context with canceled := true, cancelReason := some reason }
  /-- A context is made ready to run from the start, whatever has happened to it. -/
  | reset {context : Context κ} : Made context → Made context.reset
  /-- Anything else about a context is changed. -/
  | altered {context after : Context κ} :
      Made context → after.canceled = context.canceled → after.cancelReason = context.cancelReason → Made after

/-- Effects, observers and manipulators change contexts, and make new ones, by the operations on contexts alone. -/
structure Behaviour.KeepsMade (behaviour : Behaviour κ) : Prop where
  cast : ∀ code (context : Context κ) realm, context.Made → (behaviour.cast code context realm).2.1.Made
  notify : ∀ code (context : Context κ) realm, context.Made → (behaviour.notify code context realm).2.1.Made
  propose : ∀ code (context : Context κ) realm, context.Made →
    ∀ child ∈ (behaviour.propose code context realm).1, child.Made

namespace Context

variable {context : Context κ}

theorem Made.exists_reason
    (made : context.Made)
    (canceled : context.canceled = true) :
    ∃ reason, context.cancelReason = some reason := by
  induction made with
  | ofProgram program =>
      contradiction
  | marked reason _ _ =>
      exact ⟨reason, rfl⟩
  | reset _ _ =>
      contradiction
  | altered _ sameCanceled sameReason inductionHypothesis =>
      rw [sameReason]
      exact inductionHypothesis (sameCanceled.symm.trans canceled)

theorem Made.cancel
    (keeps : behaviour.KeepsMade)
    (made : context.Made)
    (reason : CancelReason)
    (realm : Realm) :
    (context.cancel behaviour reason realm).1.Made :=
  walk_lasts (fun _ _ observer _ told realm toldMade => keeps.notify observer told realm toldMade) _
    (made.marked reason)

theorem Made.consult
    {instructions : List (Instruction κ)}
    {position : Nat}
    {realm : Realm}
    (keeps : behaviour.KeepsMade)
    (made : context.Made) :
    ∀ proposed ∈ (consult behaviour context position instructions realm).1, proposed.2.Made := by
  induction instructions generalizing position realm with
  | nil =>
      exact fun _ nothing => nomatch nothing
  | cons instruction rest inductionHypothesis =>
      cases manipulates : instruction.manipulator with
      | none =>
          rw [Context.consult, manipulates]
          exact inductionHypothesis
      | some manipulator =>
          rcases asked : behaviour.wantsPush manipulator context realm with ⟨wants, asking⟩
          have child := keeps.propose manipulator context asking made
          rcases answer : behaviour.propose manipulator context asking with ⟨proposed, answering⟩
          rw [answer] at child
          simp only [Context.consult, manipulates, asked, answer]
          split
          · rintro _ ⟨⟩
            exact child _ rfl
          · exact inductionHypothesis

theorem Made.makeChild
    (keeps : behaviour.KeepsMade)
    (made : context.Made)
    (self : ContextId)
    (realm : Realm) :
    (context.makeChild behaviour self realm).1.context.Made := by
  have consulted : ∀ proposed ∈ (Context.consult behaviour context 0 context.remainder.instructions realm).1,
      proposed.2.Made :=
    made.consult keeps
  rcases asked : Context.consult behaviour context 0 context.remainder.instructions realm with ⟨proposed, after⟩
  rw [asked] at consulted
  cases proposed with
  | none =>
      simp only [Context.makeChild, asked]
      exact made.altered rfl rfl
  | some child =>
      simp only [Context.makeChild, asked]
      exact (consulted _ rfl).altered rfl rfl

end Context

namespace Glyph

variable {context : Context κ}

theorem cast_made
    (made : context.Made)
    (glyph : Glyph)
    (realm : Realm) :
    (glyph.cast context realm).2.1.Made := by
  cases glyph with
  | delay ticks =>
      simp only [cast, castDelay]
      split
      · exact made
      · exact made.altered rfl rfl
  | mark counter => exact made.altered rfl rfl
  | jump _ | ward | echo _ _ => exact made

theorem notify_made
    (made : context.Made)
    (glyph : Glyph)
    (realm : Realm) :
    (glyph.notify context realm).2.1.Made := by
  cases glyph with
  | ward =>
      simp only [notify, absorb]
      split
      · exact made
      · exact made
      · exact made.altered rfl rfl
  | jump _ | delay _ | mark _ | echo _ _ => exact made

theorem propose_made
    (made : context.Made)
    (glyph : Glyph) :
    ∀ child ∈ glyph.propose context, child.Made := by
  intro child proposed
  cases glyph with
  | echo id times =>
      obtain ⟨program, -, rfl⟩ := Option.map_eq_some_iff.mp proposed
      exact made.altered rfl rfl
  | jump _ | delay _ | mark _ | ward => nomatch proposed

end Glyph

namespace Session

variable {context : Context κ}

theorem withId_made
    {act : Identifier → Except Refusal Result × Context κ × Realm}
    (name : String)
    (realm : Realm)
    (made : context.Made)
    (acted : ∀ id, (act id).2.1.Made) :
    (withId name context realm act).2.1.Made := by
  unfold withId
  split
  · exact acted _
  · exact made

/-- All that can be done to a context from outside are operations on contexts. -/
theorem Action.apply_made
    (keeps : behaviour.KeepsMade)
    (made : context.Made)
    (action : Action)
    (realm : Realm) :
    (action.apply behaviour context realm).2.1.Made := by
  cases action with
  | view | note | hasNext | remainder => exact made
  | advance =>
      simp only [apply, Context.advance]
      split
      · exact made.altered rfl rfl
      · exact made.altered rfl rfl
  | cancel reason =>
      simp only [apply]
      split
      · exact made
      · exact made.cancel keeps _ realm
  | terminate => exact made.marked .terminated
  | reset => exact made.reset
  | setTool tool =>
      simp only [apply]
      split
      · exact made
      · exact made.altered rfl rfl
  | delay _ | tickToken | takeSuspension | setCounter _ | setParent _ | clearCaster | setToolCount _ | setToolTag _ _
  | setColors _ | setTag _ _ | removeTag _ =>
      exact made.altered rfl rfl
  | attach name value =>
      exact withId_made name realm made fun id => made.altered rfl rfl
  | attached name kind =>
      exact withId_made name realm made fun _ => made
  | getOrInsert name value =>
      refine withId_made name realm made fun id => ?_
      split
      · exact made.altered rfl rfl
      · exact made.altered rfl rfl
  | add name amount =>
      refine withId_made name realm made fun id => ?_
      split
      · exact made
      · exact made
  | detach name =>
      exact withId_made name realm made fun id => made.altered rfl rfl
  | inspect name =>
      exact withId_made name realm made fun _ => made

theorem perform_made
    (keeps : behaviour.KeepsMade)
    (made : context.Made)
    (label : String)
    (actions : List Action)
    (realm : Realm) :
    (perform behaviour label actions context realm).1.Made := by
  induction actions generalizing context realm with
  | nil =>
      exact made
  | cons action rest inductionHypothesis =>
      exact inductionHypothesis (Action.apply_made keeps made action realm) _

namespace Part

theorem keepsMade_within
    (depth : Nat) :
    (behaviourWithin depth).KeepsMade := by
  induction depth with
  | zero =>
      exact ⟨fun _ _ _ made => made, fun _ _ _ made => made, fun _ _ _ _ _ nothing => nomatch nothing⟩
  | succ depth inner =>
      constructor
      · intro part context realm made
        cases part with
        | glyph kind => exact Glyph.cast_made made kind realm
        | scriptEffect label actions fork => exact perform_made inner made label actions _
        | stub label =>
            cases label with
            | none => exact made
            | some label => exact made
        | forking | recorder _ _ | fixed _ _ _ _ | scriptObserver _ _ _ | scriptManipulator _ _ _ _ => exact made
      · intro part context realm made
        cases part with
        | glyph kind => exact Glyph.notify_made made kind realm
        | scriptObserver label actions keep => exact perform_made inner made label actions _
        | stub _ | forking | recorder _ _ | fixed _ _ _ _ | scriptEffect _ _ _ | scriptManipulator _ _ _ _ => exact made
      · intro part context realm made child proposed
        cases part with
        | glyph kind => exact Glyph.propose_made made kind child proposed
        | fixed label push proposal sheet =>
            obtain ⟨program, -, rfl⟩ := Option.map_eq_some_iff.mp proposed
            exact (Context.Made.ofProgram program).altered rfl rfl
        | scriptManipulator label actions push proposes =>
            have acted := perform_made inner made label actions realm
            cases proposes with
            | true =>
                obtain rfl := Option.some.inj proposed
                exact acted
            | false =>
                nomatch proposed
        | stub _ | forking | recorder _ _ | scriptEffect _ _ _ | scriptObserver _ _ _ => nomatch proposed

/-- The parts of a session change contexts by the operations on contexts alone. -/
theorem behaviour_keepsMade : Part.behaviour.KeepsMade :=
  keepsMade_within nestingLimit

end Part

end Session

end Spellcast
