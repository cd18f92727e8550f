import Spellcast.Proofs.Isolation.Mirror
import Spellcast.Proofs.Isolation.Shelter
import Spellcast.Proofs.Standard.Contexts

/-!
# Marks are counted once

The first mark of a cast makes a tally in the context in which it runs. Children copy the store and share the cell, so
later marks count on in it wherever they run, and as no other cast holds the cell nobody else does. `Context.Tallies`
says what a context has to show for some marks. It is kept by everything that others do, and followed by
`History.Marked` from the registration of a cast to its report and beyond.
-/

namespace Spellcast

variable {κ : Type} {behaviour : Behaviour κ} {embed : Glyph → κ} {maxForks : Nat} {others : List InFlight}

/-- The marks among some acts. -/
def marksOf (acts : List (Act κ)) : List (Act κ) := acts.filter (·.instruction.isMark)

namespace Context

variable {context after : Context κ} {cells cells' : Cells} {realm : Realm} {marks : List (Act κ)} {act : Act κ}

/-- The context has counted these marks: there is no tally before the first one, and then the tally has their number and
the tag the place of the last one. -/
inductive Tallies (context : Context κ) (cells : Cells) : List (Act κ) → Prop
  | unmarked :
      context.attachments.cell? Glyph.marksId = none →
      Tallies context cells []
  | marked {marks : List (Act κ)} {last : Act κ} {cell : CellId} :
      context.attachments.cell? Glyph.marksId = some cell →
      cells.read? cell = some (.tally ((marks ++ [last]).length % Cells.tallyModulus)) →
      Fields.find? Glyph.lastMarkKey context.tag = some (.nat last.context.counter) →
      Tallies context cells (marks ++ [last])

theorem Tallies.markCount
    (tallies : context.Tallies cells marks) :
    Glyph.markCount context cells Glyph.marksId = marks.length % Cells.tallyModulus := by
  cases tallies with
  | unmarked absent =>
      simp [Glyph.markCount, AttachmentStore.get?, absent]
  | marked present counted _ =>
      simp [Glyph.markCount, AttachmentStore.get?, present, counted, CellValue.kind]

theorem Tallies.lastMark
    (tallies : context.Tallies cells marks) :
    ∀ last ∈ marks.getLast?, Fields.find? Glyph.lastMarkKey context.tag = some (.nat last.context.counter) := by
  intro last isLast
  cases tallies with
  | unmarked _ =>
      exact absurd isLast (by simp)
  | marked _ _ noted =>
      simp only [List.getLast?_concat, Option.mem_some_iff] at isLast
      rw [← isLast]
      exact noted

/-- Only the attachments with their cells and one entry of the tag matter. -/
theorem Tallies.of_same
    (tallies : context.Tallies cells marks)
    (attachments : after.attachments = context.attachments)
    (tag : Fields.find? Glyph.lastMarkKey after.tag = Fields.find? Glyph.lastMarkKey context.tag)
    (kept : ∀ cell ∈ context.cells, cells'.read? cell = cells.read? cell) :
    after.Tallies cells' marks := by
  cases tallies with
  | unmarked absent =>
      exact .unmarked (attachments ▸ absent)
  | marked present counted noted =>
      have held := AttachmentStore.mem_of_lookup present
      exact .marked (attachments ▸ present) ((kept _ held).trans counted) (tag.trans noted)

/-- One more mark. -/
theorem Tallies.castMark
    (tallies : context.Tallies realm.cells marks)
    (stands : context.counter = act.context.counter + 1) :
    (Glyph.castMark Glyph.marksId context realm).1.Tallies
      (Glyph.castMark Glyph.marksId context realm).2.cells (marks ++ [act]) := by
  have noted (tag : Fields) :
      Fields.find? Glyph.lastMarkKey (Fields.insert Glyph.lastMarkKey (.nat (context.counter - 1)) tag) =
        some (.nat act.context.counter) := by
    rw [Fields.find?_insert_self, stands, Nat.add_sub_cancel]
  cases tallies with
  | unmarked absent =>
      -- the tally is made here, and counts one right away
      simp only [Glyph.castMark, AttachmentStore.getOrInsert_of_absent absent]
      have present := context.attachments.cell?_insertShared_self Glyph.marksId (realm.cells.allocate (.tally 0)).1
      have counted : ((realm.cells.allocate (.tally 0)).2.add (realm.cells.allocate (.tally 0)).1 1).read?
          (realm.cells.allocate (.tally 0)).1 = some (.tally 1) :=
        Cells.read?_add_self Cells.read?_allocate_self
      exact .marked present counted (noted context.tag)
  | @marked marks last cell present counted _ =>
      have further : (realm.cells.add cell 1).read? cell =
          some (.tally ((marks ++ [last] ++ [act]).length % Cells.tallyModulus)) := by
        have grown : (marks ++ [last] ++ [act]).length = (marks ++ [last]).length + 1 := List.length_append
        rw [Cells.read?_add_self counted, Nat.mod_add_mod, grown]
      have isTally : (CellValue.tally ((marks ++ [last]).length % Cells.tallyModulus)).kind =
          (CellValue.tally 0).kind := rfl
      simp only [Glyph.castMark, AttachmentStore.getOrInsert_of_present present counted, if_pos isTally]
      exact .marked present further (noted context.tag)

end Context

/-- A standard instruction counts if it is a mark, and leaves the tally and its tag alone otherwise. -/
theorem Glyph.cast_tallies
    {glyph : Glyph}
    {context : Context κ}
    {instruction : Instruction κ}
    {realm : Realm}
    {marks : List (Act κ)}
    (known : ofId? instruction.id = some glyph)
    (tallies : context.Tallies realm.cells marks) :
    (glyph.cast context.stepped realm).2.1.Tallies (glyph.cast context.stepped realm).2.2.cells
      (marks ++ marksOf [⟨context, instruction⟩]) := by
  have stepped : context.stepped.Tallies realm.cells marks := tallies.of_same rfl rfl fun _ _ => rfl
  rcases ofId?_eq_some known with
    ⟨path, rfl⟩ | ⟨path, rfl⟩ | ⟨path, rfl⟩ | ⟨path, rfl⟩ | ⟨path, rfl⟩
  case inr.inr.inl =>
    have isMark : marksOf [(⟨context, instruction⟩ : Act κ)] = [⟨context, instruction⟩] := by
      simp [marksOf, Instruction.isMark, path]
    rw [isMark]
    exact stepped.castMark rfl
  all_goals
    have notMark : marksOf [(⟨context, instruction⟩ : Act κ)] = [] := by
      simp [marksOf, Instruction.isMark, path]
    rw [notMark, List.append_nil]
  case inr.inl =>
    simp only [cast, castDelay]
    split
    · exact stepped
    · exact stepped.of_same rfl rfl fun _ _ => rfl
  all_goals exact stepped

namespace Turn

variable {turn : Turn κ} {context : Context κ} {earlier acts : List (Act κ)}

/-- The active context is standard and has counted the marks of earlier turns and those of this one. -/
def Marking (embed : Glyph → κ) (earlier acts : List (Act κ)) (turn : Turn κ) : Prop :=
  ∃ context, turn.arena.get? turn.cast.active = some context ∧ context.Standard embed ∧
    context.Tallies turn.realm.cells (earlier ++ marksOf acts)

theorem Marking.wake
    (marking : turn.Marking embed earlier acts)
    (live : turn.arena.get? turn.cast.active = some context) :
    (turn.wake context).1.Marking embed earlier acts := by
  obtain ⟨same, sameLive, standard, tallies⟩ := marking
  obtain rfl : same = context := Option.some.inj (sameLive.symm.trans live)
  have cases := wake_cases turn same
  generalize (turn.wake same).1 = woken at cases ⊢
  generalize (turn.wake same).2 = waits at cases
  cases cases with
  | awake _ =>
      exact ⟨same, live, standard, tallies⟩
  | waits _ _ _ =>
      exact ⟨_, Arena.get?_set_self live, standard, tallies.of_same rfl rfl fun _ _ => rfl⟩
  | resumes _ _ _ =>
      exact ⟨_, Arena.get?_set_self live, standard, tallies.of_same rfl rfl fun _ _ => rfl⟩

theorem Marking.step
    (carries : behaviour.Carries embed)
    (owns : Owns turn.arena (turn.cast :: others))
    (marking : turn.Marking embed earlier acts) :
    (turn.step behaviour maxForks).1.Marking embed earlier (acts ++ turn.act?.toList) := by
  obtain ⟨context, live, standard, tallies⟩ := marking
  have isKnown := known owns
  have cases := step_cases behaviour maxForks live isKnown
  generalize (turn.step behaviour maxForks).1 = after at cases ⊢
  generalize (turn.step behaviour maxForks).2 = goesOn at cases
  have ran {before after : Context κ} {instruction : Instruction κ} {resolution : Resolution} {realm : Realm}
      (runs : turn.Runs behaviour before instruction resolution after realm) :
      after.Standard embed ∧ after.Tallies realm.cells (earlier ++ marksOf (acts ++ turn.act?.toList)) := by
    obtain rfl : before = context := Option.some.inj (runs.live.symm.trans live)
    obtain ⟨glyph, isGlyph, code⟩ := (standard.instruction runs.found).exists_glyph
    have answer := runs.cast
    rw [code, carries.cast] at answer
    have program := glyph.cast_program before.stepped (turn.castingRealm behaviour instruction)
    have ready : before.Tallies (turn.castingRealm behaviour instruction).cells (earlier ++ marksOf acts) := tallies
    have counted := glyph.cast_tallies isGlyph ready
    rw [answer] at program counted
    constructor
    · rw [Context.Standard, program]
      exact standard
    · rw [runs.act?, marksOf, List.filter_append, ← List.append_assoc]
      exact counted
  cases cases with
  | exhausted found exhausted =>
      rw [act?_of_exhausted found exhausted]
      refine ⟨context, live, standard, ?_⟩
      simpa using tallies
  | @proceed _ after _ realm runs =>
      exact ⟨after, ran_live live, ran runs⟩
  | @limit _ after _ realm runs _ =>
      obtain ⟨stillStandard, counted⟩ := ran runs
      exact ⟨after.stopped, Arena.get?_set_self (ran_live live), stillStandard,
        counted.of_same rfl rfl fun _ _ => rfl⟩
  | @fork _ after _ realm runs _ =>
      -- the child has the attachments and the tag of its parent, and nothing happens to the cells
      obtain ⟨stillStandard, counted⟩ := ran runs
      have ranKnown : (turn.ran after realm).cast.active ≠ (turn.ran after realm).arena.nextId := isKnown
      have same : (turn.ran after realm).realm.SameWorld ((turn.ran after realm).movedOn behaviour after).realm :=
        movedOn_sameWorld carries stillStandard
      have child := (Context.makeChild_of_standard carries stillStandard turn.cast.active realm).1
      have made : ((turn.ran after realm).madeChild behaviour after).1 = _ := child
      refine ⟨_, movedOn_live ranKnown after, ?_, ?_⟩
      · exact (Context.Standard.preserves carries).child _ _ _ stillStandard
      · rw [made, same.cells]
        exact counted.of_same rfl rfl fun _ _ => rfl

theorem marking_recounting
    (carries : behaviour.Carries embed)
    (maxForks : Nat)
    (others : List InFlight)
    (earlier : List (Act κ)) :
    Recounting behaviour maxForks others (Marking embed earlier) where
  announced _ _ marking := marking
  wake _ _ _ _ live marking := marking.wake live
  step _ _ owns marking := marking.step carries owns
  counted _ _ marking := marking
  left _ _ marking := marking

end Turn

/-- Contexts are cast without attachments, and others leave the cells that there are alone. -/
def Deed.Plain (history : History κ) : Deed κ → Prop
  | .cast context => context.attachments = .empty
  | .outside realm => ∀ cell, history.realm.cells.Has cell → realm.cells.read? cell = history.realm.cells.read? cell
  | .tick | .cancel _ _ | .terminate _ => True

theorem Deed.Plain.fair
    {history : History κ}
    {deed : Deed κ}
    (plain : deed.Plain history) :
    deed.Fair history := by
  cases deed with
  | cast context =>
      intro cell listed
      have nothing : context.attachments = .empty := plain
      rw [Context.cells, nothing] at listed
      exact absurd listed List.not_mem_nil
  | outside realm =>
      intro cell has
      have same : realm.cells.read? cell = history.realm.cells.read? cell := plain cell has
      obtain ⟨value, read⟩ := Cells.has_iff.mp has
      exact ⟨Cells.has_iff.mpr ⟨value, same.trans read⟩, fun _ => same⟩
  | tick | cancel _ _ | terminate _ =>
      trivial

namespace History

variable {history : History κ} {id : CastId} {marks : List (Act κ)} {deed : Deed κ} {target : InFlight}
  {context : Context κ}

def Plainly (behaviour : Behaviour κ) : History κ → List (Deed κ) → Prop
  | _, [] => True
  | history, deed :: rest => deed.Plain history ∧ Plainly behaviour (history.after behaviour deed) rest

theorem Plainly.append
    {earlier later : List (Deed κ)}
    (plainly : Plainly behaviour history (earlier ++ later)) :
    Plainly behaviour history earlier ∧ Plainly behaviour (history.afterAll behaviour earlier) later := by
  induction earlier generalizing history with
  | nil =>
      exact ⟨trivial, plainly⟩
  | cons deed earlier inductionHypothesis =>
      obtain ⟨first, rest⟩ := plainly
      obtain ⟨restPlainly, laterPlainly⟩ := inductionHypothesis rest
      exact ⟨⟨first, restPlainly⟩, laterPlainly⟩

theorem Plainly.orderly
    {deeds : List (Deed κ)}
    (plainly : Plainly behaviour history deeds) :
    Orderly behaviour history deeds := by
  induction deeds generalizing history with
  | nil =>
      trivial
  | cons deed deeds inductionHypothesis =>
      exact ⟨plainly.1.fair, inductionHypothesis plainly.2⟩

def actsOf (behaviour : Behaviour κ) (history : History κ) (id : CastId) : Deed κ → List (Act κ)
  | .tick => ((history.scheduler.acts behaviour history.realm).filter (·.1 == id)).map (·.2)
  | .cast _ | .cancel _ _ | .terminate _ | .outside _ => []

def actsAlong (behaviour : Behaviour κ) (id : CastId) : History κ → List (Deed κ) → List (Act κ)
  | _, [] => []
  | history, deed :: rest =>
    history.actsOf behaviour id deed ++ actsAlong behaviour id (history.after behaviour deed) rest

theorem executedBy_after
    (behaviour : Behaviour κ)
    (history : History κ)
    (id : CastId)
    (deed : Deed κ) :
    (history.after behaviour deed).executedBy id =
      history.executedBy id ++ (history.actsOf behaviour id deed).map Act.instruction := by
  cases deed with
  | tick =>
      rw [after, executedBy_tick, ← Scheduler.map_acts, List.filter_map, List.map_map, actsOf, List.map_map]
      rfl
  | cast _ | cancel _ _ | terminate _ | outside _ =>
      exact (List.append_nil _).symm

/-- The acts of a cast are what it has executed, each where its context has come to. -/
theorem executedBy_afterAll
    (behaviour : Behaviour κ)
    (history : History κ)
    (id : CastId)
    (deeds : List (Deed κ)) :
    (history.afterAll behaviour deeds).executedBy id =
        history.executedBy id ++ (actsAlong behaviour id history deeds).map Act.instruction ∧
      ∀ act ∈ actsAlong behaviour id history deeds, act.Found := by
  induction deeds generalizing history with
  | nil =>
      exact ⟨(List.append_nil _).symm, fun _ member => absurd member List.not_mem_nil⟩
  | cons deed deeds inductionHypothesis =>
      obtain ⟨executed, found⟩ := inductionHypothesis (history.after behaviour deed)
      constructor
      · rw [actsAlong, List.map_append, ← List.append_assoc, ← executedBy_after]
        exact executed
      · intro act member
        rcases List.mem_append.mp member with here | further
        · cases deed with
          | tick =>
              obtain ⟨entry, entryMember, rfl⟩ := List.mem_map.mp here
              exact Scheduler.acts_found entry (List.mem_filter.mp entryMember).1
          | cast _ | cancel _ _ | terminate _ | outside _ =>
              exact absurd here List.not_mem_nil
        · exact found act further

def Shows (history : History κ) (id : CastId) (context : Context κ) : Prop :=
  history.scheduler.context? id = some context ∨
    ∃ outcome ∈ history.completed, outcome.id = id ∧ outcome.finalContext = some context

/-- The cast is in flight and its active context has counted these marks, or it has been reported and its final context
has. -/
inductive Marked (embed : Glyph → κ) (history : History κ) (id : CastId) (marks : List (Act κ)) : Prop
  | inFlight {target : InFlight} {context : Context κ} :
      target.id = id →
      history.Shelters target context →
      context.Standard embed →
      context.Tallies history.realm.cells marks →
      (∀ outcome ∈ history.completed, outcome.id ≠ id) →
      Marked embed history id marks
  | gone {final : Context κ} :
      history.Gone id →
      history.Sheltered id final.cells →
      final.Tallies history.realm.cells marks →
      (∃ outcome ∈ history.completed, outcome.id = id ∧ outcome.finalContext = some final) →
      (∀ outcome ∈ history.completed, outcome.id = id → outcome.finalContext = some final) →
      Marked embed history id marks

theorem Marked.shows
    (marked : Marked embed history id marks) :
    ∃ context, history.Shows id context ∧ context.Tallies history.realm.cells marks ∧
      ∀ other, history.Shows id other → other = context := by
  cases marked with
  | @inFlight target context isTarget shelters _ tallies notReported =>
      have active : history.scheduler.context? id = some context := by
        rw [← isTarget, Scheduler.context?, Scheduler.activeContext?,
          Scheduler.find?_eq_of_mem shelters.sheltered.accounts.castIds_nodup shelters.member]
        exact shelters.live
      refine ⟨context, .inl active, tallies, ?_⟩
      rintro other (isActive | ⟨outcome, reported, isOwn, -⟩)
      · exact Option.some.inj (isActive.symm.trans active)
      · exact absurd isOwn (notReported outcome reported)
  | @gone final gone _ tallies reported only =>
      refine ⟨final, .inr reported, tallies, ?_⟩
      rintro other (isActive | ⟨outcome, member, isOwn, isFinal⟩)
      · rw [Scheduler.context?, Scheduler.activeContext?_eq_none gone.absent] at isActive
        exact absurd isActive (by simp)
      · exact Option.some.inj (isFinal.symm.trans (only outcome member isOwn))

/-- A tick that reports nothing of a cast. -/
theorem completed_of_silent
    {outcome : Outcome κ}
    (silent : history.reported behaviour id .tick = [])
    (member : outcome ∈ (history.tick behaviour).completed)
    (isOwn : outcome.id = id) :
    outcome ∈ history.completed := by
  rw [completed_tick] at member
  rcases List.mem_append.mp member with old | new
  · exact old
  · have listed : outcome ∈ history.reported behaviour id .tick :=
      List.mem_filter.mpr ⟨new, by simp [isOwn]⟩
    rw [silent] at listed
    exact absurd listed List.not_mem_nil

/-- The turn of the cast itself counts the marks that it runs. -/
theorem Marked.tick
    (carries : behaviour.Carries embed)
    (discreet : behaviour.Discreet)
    (shelters : history.Shelters target context)
    (standard : context.Standard embed)
    (tallies : context.Tallies history.realm.cells marks)
    (notReported : ∀ outcome ∈ history.completed, outcome.id ≠ target.id) :
    Marked embed (history.tick behaviour) target.id (marks ++ marksOf (history.actsOf behaviour target.id .tick)) := by
  obtain ⟨earlier, later, split⟩ := List.append_of_mem shelters.member
  obtain ⟨after, verdict, final, takes⟩ := shelters.takesTurn_of_split discreet split
  have acts : history.actsOf behaviour target.id .tick =
      ((history.scheduler.roundAfter behaviour history.realm earlier).turn target).actsTaken behaviour
        history.scheduler.maxSteps history.scheduler.maxForks := by
    rw [actsOf, Scheduler.acts, Scheduler.filter_traced_of_split _ shelters.sheltered.accounts.castIds_nodup split,
      List.map_map]
    exact List.map_id _
  obtain ⟨others, owns⟩ := takes.turned.owns
  have started : Turn.Marking embed marks [] ((history.scheduler.roundAfter behaviour history.realm earlier).turn
      target) :=
    ⟨context, takes.live, standard, by simpa [marksOf] using tallies.of_same rfl rfl takes.given⟩
  have ended := (Turn.marking_recounting carries history.scheduler.maxForks others marks).take
    history.scheduler.maxSteps owns started
  rw [takes.taken, ← acts] at ended
  obtain ⟨same, sameLive, finalStandard, counted⟩ := ended
  obtain rfl : same = final := Option.some.inj (sameLive.symm.trans takes.finalLive)
  have kept : same.Tallies (history.tick behaviour).realm.cells _ := counted.of_same rfl rfl takes.kept
  cases verdict with
  | running =>
      obtain ⟨stillShelters, silent⟩ := shelters.running takes
      refine .inFlight takes.sameId stillShelters finalStandard kept ?_
      intro outcome member isOwn
      exact notReported outcome (completed_of_silent silent member isOwn) isOwn
  | finished =>
      obtain ⟨gone, reported⟩ := shelters.finished takes
      have ownReport : Scheduler.outcome after.cast (some same) ∈ history.reported behaviour target.id .tick := by
        rw [reported]
        exact List.mem_singleton_self _
      refine .gone gone ⟨gone.owns, gone.accounts, takes.guarded⟩ kept
        ⟨Scheduler.outcome after.cast (some same), ?_, takes.sameId, rfl⟩ ?_
      · rw [completed_tick]
        exact List.mem_append_right _ (List.mem_filter.mp ownReport).1
      · intro outcome member isOwn
        rw [completed_tick] at member
        rcases List.mem_append.mp member with old | new
        · exact absurd isOwn (notReported outcome old)
        · have listed : outcome ∈ history.reported behaviour target.id .tick :=
            List.mem_filter.mpr ⟨new, by simp [isOwn]⟩
          rw [reported] at listed
          rw [List.mem_singleton.mp listed]
          rfl

/-- Others leave a reported cast and its final context alone. -/
theorem Marked.gone_after
    {final : Context κ}
    (discreet : behaviour.Discreet)
    (gone : history.Gone id)
    (sheltered : history.Sheltered id final.cells)
    (tallies : final.Tallies history.realm.cells marks)
    (reported : ∃ outcome ∈ history.completed, outcome.id = id ∧ outcome.finalContext = some final)
    (only : ∀ outcome ∈ history.completed, outcome.id = id → outcome.finalContext = some final)
    (plain : deed.Plain history) :
    Marked embed (history.after behaviour deed) id marks := by
  have stillGone := (gone_stable behaviour .free id).after gone deed
  have different {other : CastId} (inFlight : other ∈ history.scheduler.castIds) : other ≠ id :=
    fun same => gone.absent (same ▸ inFlight)
  cases deed with
  | cast new =>
      have nothing : new.attachments = .empty := plain
      have apart : ∀ cell ∈ new.cells, cell ∉ final.cells := by
        intro cell listed
        rw [Context.cells, nothing] at listed
        exact absurd listed List.not_mem_nil
      exact .gone stillGone (sheltered.cast plain.fair apart) tallies reported only
  | tick =>
      obtain ⟨stillSheltered, kept⟩ := sheltered.tick_kept discreet gone.absent
      refine .gone stillGone stillSheltered (tallies.of_same rfl rfl kept) ?_ ?_
      · obtain ⟨outcome, member, isOwn⟩ := reported
        refine ⟨outcome, ?_, isOwn⟩
        rw [after, completed_tick]
        exact List.mem_append_left _ member
      · intro outcome member isOwn
        exact only outcome (completed_of_silent (gone.silent behaviour .tick) member isOwn) isOwn
  | cancel other reason =>
      obtain ⟨stillSheltered, kept⟩ := sheltered.cancel discreet different reason
      exact .gone stillGone stillSheltered (tallies.of_same rfl rfl kept) reported only
  | terminate other =>
      obtain ⟨stillSheltered, kept⟩ := sheltered.terminate different
      exact .gone stillGone stillSheltered (tallies.of_same rfl rfl kept) reported only
  | outside realm =>
      have kept : ∀ cell ∈ final.cells, realm.cells.read? cell = history.realm.cells.read? cell :=
        fun cell listed => plain cell (sheltered.guarded.has cell listed)
      exact .gone stillGone (sheltered.outside plain.fair) (tallies.of_same rfl rfl kept) reported only

theorem Marked.after
    (carries : behaviour.Carries embed)
    (discreet : behaviour.Discreet)
    (marked : Marked embed history id marks)
    (plain : deed.Plain history) :
    Marked embed (history.after behaviour deed) id (marks ++ marksOf (history.actsOf behaviour id deed)) := by
  cases marked with
  | @gone final gone sheltered tallies reported only =>
      have nothing : history.actsOf behaviour id deed = [] := by
        cases deed with
        | tick =>
            rw [actsOf, Scheduler.acts, Scheduler.traced, Scheduler.filter_tracedFrom_eq_nil gone.absent, List.map_nil]
        | cast _ | cancel _ _ | terminate _ | outside _ =>
            rfl
      rw [nothing, marksOf, List.filter_nil, List.append_nil]
      exact Marked.gone_after discreet gone sheltered tallies reported only plain
  | @inFlight target context isTarget shelters standard tallies notReported =>
      subst isTarget
      -- what is left to show for everything but a tick: it makes nobody run anything
      have interrupted {after : Context κ} {next : History κ} (stillShelters : next.Shelters target after)
          (stillStandard : after.Standard embed) (stillTallies : after.Tallies next.realm.cells marks)
          (completed : next.completed = history.completed) :
          Marked embed next target.id (marks ++ marksOf []) := by
        rw [marksOf, List.filter_nil, List.append_nil]
        exact .inFlight rfl stillShelters stillStandard stillTallies (completed ▸ notReported)
      have others (foreign : deed.own target.id target.id = none)
          (completed : (history.after behaviour deed).completed = history.completed) :
          Marked embed (history.after behaviour deed) target.id (marks ++ marksOf []) := by
        obtain ⟨stillShelters, kept⟩ := shelters.after_other discreet plain.fair foreign
        exact interrupted stillShelters standard (tallies.of_same rfl rfl kept) completed
      cases deed with
      | cast new =>
          exact others rfl rfl
      | outside realm =>
          exact others rfl rfl
      | tick =>
          exact Marked.tick carries discreet shelters standard tallies notReported
      | cancel other reason =>
          by_cases isOwn : other = target.id
          · subst isOwn
            obtain ⟨noted, same, stillShelters, further⟩ := shelters.cancel discreet reason
            obtain ⟨tag, canceled, kept, canceledSame⟩ := standard.cancel carries reason noted
            have cells : (history.cancel behaviour target.id reason).realm.cells = history.realm.cells :=
              further.cells.trans (canceledSame.cells.trans same.cells)
            refine interrupted stillShelters ?_ ?_ rfl
            · exact (Context.Standard.preserves carries).canceled _ _ _ standard
            · rw [after, cells, canceled]
              exact tallies.of_same rfl (kept _ (by decide)) fun _ _ => rfl
          · exact others (by simp [Deed.own, isOwn]) rfl
      | terminate other =>
          by_cases isOwn : other = target.id
          · subst isOwn
            obtain ⟨stillShelters, same⟩ := shelters.terminate
            refine interrupted stillShelters standard ?_ rfl
            rw [after, same.cells]
            exact tallies.of_same rfl rfl fun _ _ => rfl
          · exact others (by simp [Deed.own, isOwn]) rfl

theorem Marked.afterAll
    (carries : behaviour.Carries embed)
    (discreet : behaviour.Discreet)
    {deeds : List (Deed κ)}
    (marked : Marked embed history id marks)
    (plainly : Plainly behaviour history deeds) :
    Marked embed (history.afterAll behaviour deeds) id (marks ++ marksOf (actsAlong behaviour id history deeds)) := by
  induction deeds generalizing history marks with
  | nil =>
      simpa [afterAll, actsAlong, marksOf] using marked
  | cons deed deeds inductionHypothesis =>
      have next := inductionHypothesis (marked.after carries discreet plainly.1) plainly.2
      rw [actsAlong, marksOf, List.filter_append, ← List.append_assoc]
      exact next

end History

section Followed

variable {scheduler : Scheduler κ} {realm : Realm} {context : Context κ} {earlier later : List (Deed κ)}

/-- At any time after the registration of a standard cast with a fresh context, its active context, or its final one
after its report, counts exactly the marks among the instructions that the cast has executed so far in all of its
contexts, up to the range of the counter, and names the place of the last one in the program that it was in. -/
theorem marksAreCountedOnce
    (carries : behaviour.Carries embed)
    (discreet : behaviour.Discreet)
    (made : scheduler.Made)
    (plainly : History.Plainly behaviour (.start scheduler realm) (earlier ++ .cast context :: later))
    (standard : context.Standard embed) :
    let before := (History.start scheduler realm).afterAll behaviour earlier
    let id := before.scheduler.nextCast
    let history := (before.cast context).afterAll behaviour later
    let acts := History.actsAlong behaviour id (before.cast context) later
    let marks := marksOf acts
    acts.map Act.instruction = history.executedBy id ∧
    (∀ act ∈ acts, act.Found) ∧
    (∃ current, history.Shows id current) ∧
    ∀ current, history.Shows id current →
      Glyph.markCount current history.realm.cells Glyph.marksId = marks.length % Cells.tallyModulus ∧
      (marks.length < Cells.tallyModulus →
        Glyph.markCount current history.realm.cells Glyph.marksId = marks.length) ∧
      ∀ last ∈ marks.getLast?,
        Fields.find? Glyph.lastMarkKey current.tag = some (.nat last.context.counter) := by
  intro before id history acts marks
  obtain ⟨plainlyEarlier, plain, plainlyLater⟩ := plainly.append
  have start : (History.start scheduler realm).Spares [] := History.spares_start made fun _ member =>
    absurd member List.not_mem_nil
  have spares : before.Spares [] := start.afterAll discreet plainlyEarlier.orderly
  have initially : ((History.start scheduler realm).Owns ∧ (History.start scheduler realm).Accounts) ∧
      ∀ entry ∈ (History.start scheduler realm).executed, entry.1 ∈ (History.start scheduler realm).registered :=
    ⟨⟨start.owns, start.accounts⟩, fun _ member => absurd member List.not_mem_nil⟩
  obtain ⟨⟨-, accounts⟩, registered⟩ : (before.Owns ∧ before.Accounts) ∧
      ∀ entry ∈ before.executed, entry.1 ∈ before.registered :=
    (History.executed_stable behaviour .free).afterAll initially earlier
  have unknown : (before.cast context).executedBy id = [] :=
    History.executedBy_eq_nil fun entry member (same : entry.1 = before.scheduler.nextCast) =>
      accounts.nextCast_unknown (same ▸ registered entry member)
  obtain ⟨executed, found⟩ := History.executedBy_afterAll behaviour (before.cast context) id later
  -- a cast with a fresh context starts with no marks, and none are ahead of the ones that it runs
  have fresh : ({ context with parent := none } : Context κ).Tallies before.realm.cells [] := by
    have nothing : context.attachments = .empty := plain
    refine .unmarked ?_
    rw [nothing]
    rfl
  have notReported : ∀ outcome ∈ (before.cast context).completed, outcome.id ≠ before.newcomer.id := by
    intro outcome member (isOwn : outcome.id = before.scheduler.nextCast)
    exact accounts.nextCast_unknown (isOwn ▸ accounts.registered_of_completed member)
  have marked : History.Marked embed (before.cast context) id [] :=
    .inFlight rfl (.of_cast spares plain.fair) standard fresh notReported
  obtain ⟨current, shown, tallies, only⟩ := (marked.afterAll carries discreet plainlyLater).shows
  refine ⟨?_, found, ⟨current, shown⟩, ?_⟩
  · rw [executed, unknown, List.nil_append]
  · intro other otherShown
    rw [only other otherShown]
    refine ⟨tallies.markCount, ?_, tallies.lastMark⟩
    intro fits
    rw [← Nat.mod_eq_of_lt fits]
    exact tallies.markCount

end Followed

/-- One mark before a fork and three behind it, where an echo repeats the last of two. -/
theorem marksAreCountedOnce_acrossFork :
    let mark : Instruction Glyph := Glyph.instruction id 0 Glyph.markId (.mark Glyph.marksId)
    let delay : Instruction Glyph := Glyph.instruction id 1 Glyph.delayId (.delay Glyph.defaultDelay)
    let echo : Instruction Glyph := Glyph.instruction id 2 Glyph.echoId (.echo Glyph.echoId Glyph.defaultTimes)
    let context : Context Glyph := .ofProgram (.ofInstructions [mark, delay, mark, echo, mark])
    let earlier : List (Deed Glyph) := [.cast (.ofProgram (.ofInstructions [mark]))]
    let later : List (Deed Glyph) := List.replicate 21 .tick
    let before := (History.start .empty .empty).afterAll Glyph.behaviour earlier
    let own := before.scheduler.nextCast
    let history := (before.cast context).afterAll Glyph.behaviour later
    let marks := marksOf (History.actsAlong Glyph.behaviour own (before.cast context) later)
    (Scheduler.empty : Scheduler Glyph).Made ∧
      History.Plainly Glyph.behaviour (.start .empty .empty) (earlier ++ .cast context :: later) ∧
      context.Standard id ∧
      marks.map (·.context.counter) = [0, 0, 1, 2] ∧
      ∀ current, history.Shows own current →
        Glyph.markCount current history.realm.cells Glyph.marksId = 4 ∧
        Fields.find? Glyph.lastMarkKey current.tag = some (.nat 2) := by
  intro mark delay echo context earlier later before own history marks
  have standard : context.Standard id := by
    refine List.forall_mem_cons.mpr ⟨Glyph.isStandard_mark 0, ?_⟩
    refine List.forall_mem_cons.mpr ⟨Glyph.isStandard_delay 1, ?_⟩
    refine List.forall_mem_cons.mpr ⟨Glyph.isStandard_mark 0, ?_⟩
    refine List.forall_mem_cons.mpr ⟨Glyph.isStandard_echo 2, ?_⟩
    exact List.forall_mem_singleton.mpr (Glyph.isStandard_mark 0)
  have plainly : History.Plainly Glyph.behaviour (.start .empty .empty) (earlier ++ .cast context :: later) := by
    simp [History.Plainly, earlier, later, Deed.Plain, context, Context.ofProgram, List.replicate]
  have places : marks.map (·.context.counter) = [0, 0, 1, 2] := by decide +kernel
  have four : marks.length = 4 := by
    rw [← List.length_map, places]
    rfl
  have statement := marksAreCountedOnce Glyph.behaviour_carries Glyph.behaviour_discreet .empty plainly standard
  refine ⟨.empty, plainly, standard, places, ?_⟩
  intro current shown
  obtain ⟨-, count, noted⟩ := statement.2.2.2 current shown
  have isLast : (marks.map (·.context.counter)).getLast? = some 2 := by
    rw [places]
    rfl
  rw [List.getLast?_map] at isLast
  obtain ⟨last, member, place⟩ := Option.map_eq_some_iff.mp isLast
  constructor
  · exact (count (four ▸ by decide)).trans four
  · rw [← place]
    exact noted last member

end Spellcast
