import Spellcast.Proofs.Isolation.Mirror
import Spellcast.Proofs.Isolation.Shelter

/-!
# Casts do not interfere

A cast of standard instructions is followed in two histories: among any other casts, and alone in a scheduler with the
same limits. `Abreast` relates the two as long as both are in flight. Ticks and interrupts of the cast keep it, and so
does all that the others do in the first history. What is known of the cast at its end, `Ending`, is the same in both.
-/

namespace Spellcast

variable {κ : Type} {behaviour : Behaviour κ} {embed : Glyph → κ}

/-- What is known of a cast at its end, apart from numbers that were given out and from the caster. -/
structure Ending (κ : Type) where
  steps : Nat
  forks : Nat
  ticks : Nat
  cancelReason : Option CancelReason
  final : Option (Context κ)
  contents : Option (List (Identifier × Option CellValue × List Identifier))

def Outcome.ending (cells : Cells) (outcome : Outcome κ) : Ending κ where
  steps := outcome.steps
  forks := outcome.forks
  ticks := outcome.ticks
  cancelReason := outcome.cancelReason
  final := outcome.finalContext.map (·.anonymous)
  contents := outcome.finalContext.map (·.contents cells)

theorem Mirrored.ending
    {first second : Context κ}
    {realm realm' : Realm}
    {cast cast' : InFlight}
    (mirrored : Mirrored embed first realm second realm')
    (steps : cast'.steps = cast.steps)
    (forks : cast'.forks = cast.forks)
    (ticks : cast'.ticks = cast.ticks) :
    (Scheduler.outcome cast' (some second)).ending realm'.cells =
      (Scheduler.outcome cast (some first)).ending realm.cells := by
  obtain ⟨rename, mirrors⟩ := mirrored.mirrors
  have canceled : second.canceled = first.canceled := by rw [mirrors.rest]
  have reason : second.cancelReason = first.cancelReason := by rw [mirrors.rest]
  simp only [Outcome.ending, Scheduler.outcome, Option.map_some, Option.filter, steps, forks, ticks, canceled,
    mirrors.anonymous, mirrors.contents]
  split
  · simp [reason]
  · rfl

namespace History

variable {first second : History κ} {id id' : CastId} {cast cast' : InFlight} {deed own : Deed κ}

def endings (behaviour : Behaviour κ) (id : CastId) : History κ → List (Deed κ) → List (Ending κ)
  | _, [] => []
  | history, deed :: rest =>
    let next := history.after behaviour deed
    (history.reported behaviour id deed).map (·.ending next.realm.cells) ++ endings behaviour id next rest

/-- Two schedulers run under the same limits. -/
structure SameLimits (first second : History κ) : Prop where
  maxSteps : second.scheduler.maxSteps = first.scheduler.maxSteps
  maxForks : second.scheduler.maxForks = first.scheduler.maxForks

theorem SameLimits.symm
    (same : SameLimits first second) :
    SameLimits second first :=
  ⟨same.maxSteps.symm, same.maxForks.symm⟩

theorem SameLimits.trans
    {third : History κ}
    (same : SameLimits first second)
    (further : SameLimits second third) :
    SameLimits first third :=
  ⟨further.maxSteps.trans same.maxSteps, further.maxForks.trans same.maxForks⟩

theorem sameLimits_after
    (behaviour : Behaviour κ)
    (history : History κ)
    (deed : Deed κ) :
    SameLimits history (history.after behaviour deed) := by
  obtain ⟨maxSteps, maxForks⟩ := (limits_stable behaviour .free _ _).after ⟨rfl, rfl⟩ deed
  exact ⟨maxSteps, maxForks⟩

theorem sameLimits_afterAll
    (behaviour : Behaviour κ)
    (history : History κ)
    (deeds : List (Deed κ)) :
    SameLimits history (history.afterAll behaviour deeds) := by
  obtain ⟨maxSteps, maxForks⟩ := (limits_stable behaviour .free _ _).afterAll ⟨rfl, rfl⟩ deeds
  exact ⟨maxSteps, maxForks⟩

/-- A cast is in flight in both histories, has done as much in both, and is at contexts that mirror each other. -/
structure Abreast (embed : Glyph → κ) (first : History κ) (cast : InFlight) (second : History κ) (cast' : InFlight) :
    Prop where
  limits : SameLimits first second
  steps : cast'.steps = cast.steps
  forks : cast'.forks = cast.forks
  ticks : cast'.ticks = cast.ticks
  contexts : ∃ context context', first.Shelters cast context ∧ second.Shelters cast' context' ∧
    Mirrored embed context first.realm context' second.realm

/-- A cast is in flight in both histories and abreast, or gone from both. -/
inductive Level (embed : Glyph → κ) (first : History κ) (id : CastId) (second : History κ) (id' : CastId) : Prop
  | abreast {cast cast' : InFlight} :
      cast.id = id → cast'.id = id' → Abreast embed first cast second cast' → Level embed first id second id'
  | gone : first.Gone id → second.Gone id' → Level embed first id second id'

/-- In a tick both take turns that run the same, and leave contexts that mirror each other. -/
theorem Abreast.take
    (carries : behaviour.Carries embed)
    {context context' final final' : Context κ}
    {turn turn' after after' : Turn κ}
    {verdict verdict' : Turn.Verdict}
    (abreast : Abreast embed first cast second cast')
    (mirrored : Mirrored embed context first.realm context' second.realm)
    (takes : first.TakesTurn behaviour cast context turn after verdict final)
    (takes' : second.TakesTurn behaviour cast' context' turn' after' verdict' final') :
    verdict' = verdict ∧ Mirrored embed final (first.tick behaviour).realm final' (second.tick behaviour).realm ∧
      after'.cast.steps = after.cast.steps ∧ after'.cast.forks = after.cast.forks ∧
      after'.cast.ticks = after.cast.ticks := by
  obtain ⟨others, owns⟩ := takes.turned.owns
  obtain ⟨others', owns'⟩ := takes'.turned.owns
  have twin : Turn.Twin (fun _ _ => True) (Mirrored embed) turn turn' := by
    refine ⟨⟨context, context', takes.live, takes'.live, mirrored.agree takes.given takes'.given⟩, ?_, trivial, trivial⟩
    rw [takes.turned.started, takes'.turned.started]
    exact abreast.forks
  obtain ⟨sameVerdict, sameTaken, twinAfter⟩ :=
    twin.take carries.simulates first.scheduler.maxSteps first.scheduler.maxForks owns owns'
  rw [List.map_id, List.map_id] at sameTaken
  have taken' := takes'.taken
  have steps' := takes'.steps
  rw [abreast.limits.maxSteps, abreast.limits.maxForks] at taken' steps'
  rw [takes.taken, taken'] at sameVerdict twinAfter
  obtain ⟨last, last', lastLive, lastLive', still⟩ := twinAfter.contexts
  obtain rfl : last = final := Option.some.inj (lastLive.symm.trans takes.finalLive)
  obtain rfl : last' = final' := Option.some.inj (lastLive'.symm.trans takes'.finalLive)
  refine ⟨sameVerdict, still.agree takes.kept takes'.kept, ?_, twinAfter.forks, ?_⟩
  · rw [takes.steps, steps', sameTaken, abreast.steps]
  · rw [takes.ticks, takes'.ticks, abreast.ticks]

theorem Abreast.tick
    (carries : behaviour.Carries embed)
    (discreet : behaviour.Discreet)
    (abreast : Abreast embed first cast second cast') :
    Level embed (first.tick behaviour) cast.id (second.tick behaviour) cast'.id ∧
      (second.reported behaviour cast'.id .tick).map (·.ending (second.tick behaviour).realm.cells) =
        (first.reported behaviour cast.id .tick).map (·.ending (first.tick behaviour).realm.cells) := by
  obtain ⟨context, context', shelters, shelters', mirrored⟩ := abreast.contexts
  obtain ⟨turn, after, verdict, final, takes⟩ := shelters.exists_turn discreet
  obtain ⟨turn', after', verdict', final', takes'⟩ := shelters'.exists_turn discreet
  obtain ⟨rfl, finals, steps, forks, ticks⟩ := abreast.take carries mirrored takes takes'
  cases verdict' with
  | running =>
      obtain ⟨nextShelters, silent⟩ := shelters.running takes
      obtain ⟨nextShelters', silent'⟩ := shelters'.running takes'
      have limits : SameLimits (first.tick behaviour) (second.tick behaviour) :=
        ((sameLimits_after behaviour first .tick).symm.trans abreast.limits).trans
          (sameLimits_after behaviour second .tick)
      refine ⟨.abreast takes.sameId takes'.sameId ⟨limits, steps, forks, ticks, final, final', nextShelters,
        nextShelters', finals⟩, ?_⟩
      rw [silent, silent', List.map_nil, List.map_nil]
  | finished =>
      obtain ⟨gone, reported⟩ := shelters.finished takes
      obtain ⟨gone', reported'⟩ := shelters'.finished takes'
      refine ⟨.gone gone gone', ?_⟩
      rw [reported, reported', List.map_singleton, List.map_singleton, finals.ending steps forks ticks]

theorem Abreast.cancel
    (carries : behaviour.Carries embed)
    (discreet : behaviour.Discreet)
    (abreast : Abreast embed first cast second cast')
    (reason : CancelReason) :
    Abreast embed (first.cancel behaviour cast.id reason) cast (second.cancel behaviour cast'.id reason) cast' := by
  obtain ⟨context, context', shelters, shelters', mirrored⟩ := abreast.contexts
  obtain ⟨noted, same, nextShelters, next⟩ := shelters.cancel discreet reason
  obtain ⟨noted', same', nextShelters', next'⟩ := shelters'.cancel discreet reason
  have limits : SameLimits (first.cancel behaviour cast.id reason) (second.cancel behaviour cast'.id reason) :=
    ((sameLimits_after behaviour first (.cancel cast.id reason)).symm.trans abreast.limits).trans
      (sameLimits_after behaviour second (.cancel cast'.id reason))
  have canceled := ((carries.simulates.logged mirrored same same').cancel carries reason).1
  exact ⟨limits, abreast.steps, abreast.forks, abreast.ticks, _, _, nextShelters, nextShelters',
    carries.simulates.logged canceled next next'⟩

theorem Abreast.terminate
    (carries : behaviour.Carries embed)
    (abreast : Abreast embed first cast second cast') :
    Abreast embed (first.terminate cast.id) cast (second.terminate cast'.id) cast' := by
  obtain ⟨context, context', shelters, shelters', mirrored⟩ := abreast.contexts
  obtain ⟨nextShelters, next⟩ := shelters.terminate
  obtain ⟨nextShelters', next'⟩ := shelters'.terminate
  have limits : SameLimits (first.terminate cast.id) (second.terminate cast'.id) :=
    ((sameLimits_after behaviour first (.terminate cast.id)).symm.trans abreast.limits).trans
      (sameLimits_after behaviour second (.terminate cast'.id))
  exact ⟨limits, abreast.steps, abreast.forks, abreast.ticks, _, _, nextShelters, nextShelters',
    carries.simulates.logged (carries.simulates.stopped mirrored) next next'⟩

/-- What is not done to the cast itself changes nothing for it. -/
theorem Level.after_other
    (discreet : behaviour.Discreet)
    (level : Level embed first id second id')
    (fair : deed.Fair first)
    (foreign : deed.own id id' = none) :
    Level embed (first.after behaviour deed) id second id' ∧ first.reported behaviour id deed = [] := by
  cases level with
  | @abreast cast cast' sameId sameId' abreast =>
      subst sameId
      obtain ⟨context, context', shelters, shelters', mirrored⟩ := abreast.contexts
      obtain ⟨nextShelters, kept⟩ := shelters.after_other discreet fair foreign
      have limits := (sameLimits_after behaviour first deed).symm.trans abreast.limits
      refine ⟨.abreast rfl sameId' ⟨limits, abreast.steps, abreast.forks, abreast.ticks, context, context',
        nextShelters, shelters', mirrored.agree kept fun _ _ => rfl⟩, ?_⟩
      cases deed with
      | tick => cases foreign
      | cast _ | cancel _ _ | terminate _ | outside _ => rfl
  | gone goneFirst goneSecond =>
      exact ⟨.gone ((gone_stable behaviour .free id).after goneFirst deed) goneSecond, goneFirst.silent behaviour deed⟩

/-- What is done to the cast itself has the same effect in both histories. -/
theorem Level.after_own
    (carries : behaviour.Carries embed)
    (discreet : behaviour.Discreet)
    (level : Level embed first id second id')
    (isOwn : deed.own id id' = some own) :
    Level embed (first.after behaviour deed) id (second.after behaviour own) id' ∧
      (second.reported behaviour id' own).map (·.ending (second.after behaviour own).realm.cells) =
        (first.reported behaviour id deed).map (·.ending (first.after behaviour deed).realm.cells) := by
  cases level with
  | @abreast cast cast' sameId sameId' abreast =>
      subst sameId sameId'
      cases deed with
      | tick =>
          obtain rfl : .tick = own := Option.some.inj isOwn
          exact abreast.tick carries discreet
      | cancel other reason =>
          by_cases same : other = cast.id
          · subst same
            rw [Deed.own, if_pos rfl, Option.some.injEq] at isOwn
            subst isOwn
            exact ⟨.abreast rfl rfl (abreast.cancel carries discreet reason), rfl⟩
          · rw [Deed.own, if_neg same] at isOwn
            cases isOwn
      | terminate other =>
          by_cases same : other = cast.id
          · subst same
            rw [Deed.own, if_pos rfl, Option.some.injEq] at isOwn
            subst isOwn
            exact ⟨.abreast rfl rfl (abreast.terminate carries), rfl⟩
          · rw [Deed.own, if_neg same] at isOwn
            cases isOwn
      | cast _ | outside _ => cases isOwn
  | gone goneFirst goneSecond =>
      have stillGone := (gone_stable behaviour .free id).after goneFirst deed
      have stillGone' := (gone_stable behaviour .free id').after goneSecond own
      refine ⟨.gone stillGone stillGone', ?_⟩
      rw [goneFirst.silent, goneSecond.silent, List.map_nil, List.map_nil]

theorem Level.endings_eq
    (carries : behaviour.Carries embed)
    (discreet : behaviour.Discreet)
    {deeds : List (Deed κ)}
    (level : Level embed first id second id')
    (orderly : Orderly behaviour first deeds) :
    second.endings behaviour id' (deeds.filterMap (Deed.own id id')) = first.endings behaviour id deeds := by
  induction deeds generalizing first second with
  | nil =>
      rfl
  | cons deed deeds inductionHypothesis =>
      cases isOwn : deed.own id id' with
      | none =>
          obtain ⟨next, silent⟩ := level.after_other discreet orderly.1 isOwn
          rw [List.filterMap_cons_none isOwn, endings, silent]
          exact inductionHypothesis next orderly.2
      | some own =>
          obtain ⟨next, same⟩ := level.after_own carries discreet isOwn
          rw [List.filterMap_cons_some isOwn, endings, endings, same, inductionHypothesis next orderly.2]

end History

/-- Whatever else happens to a scheduler, a cast of standard instructions ends as it does alone under the same limits,
with the ticks and the interrupts of its own. The other casts may have any instructions that keep to their contexts, as
glyphs do, and no cell is held by two casts (`Spares.orderly` covers contexts that are made with cells of their own).
Alone, the context may have another caster, other cells of the same values and another realm. -/
theorem castsDoNotInterfere
    (carries : behaviour.Carries embed)
    (discreet : behaviour.Discreet)
    {shared alone : Scheduler κ}
    (made : shared.Made)
    (madeAlone : alone.Made)
    (maxSteps : alone.maxSteps = shared.maxSteps)
    (maxForks : alone.maxForks = shared.maxForks)
    {realm realm' : Realm}
    {earlier later : List (Deed κ)}
    {context context' : Context κ}
    (orderly : History.Orderly behaviour (.start shared realm) (earlier ++ .cast context :: later))
    (standard : ∀ instruction ∈ context.program.instructions, Glyph.IsStandard embed instruction)
    {rename : CellId → CellId} :
    let before := (History.start shared realm).afterAll behaviour earlier
    context.Mirrors rename before.realm.cells context' realm'.cells →
      (before.cast context).endings behaviour before.scheduler.nextCast later =
        ((History.start alone realm').cast context').endings behaviour alone.nextCast
          (later.filterMap (Deed.own before.scheduler.nextCast alone.nextCast)) := by
  intro before mirrors
  obtain ⟨orderlyEarlier, fair, orderlyLater⟩ := orderly.append
  have spares : before.Spares [] := (History.spares_start made fun _ member =>
    absurd member List.not_mem_nil).afterAll discreet orderlyEarlier
  have sparesAlone : (History.start alone realm').Spares [] := History.spares_start madeAlone fun _ member =>
    absurd member List.not_mem_nil
  have fairAlone : (Deed.cast context').Fair (.start alone realm') := by
    intro cell listed
    refine ⟨mirrors.attachments.has listed, ?_⟩
    rintro ⟨cast, member, -⟩
    change cast ∈ alone.casts at member
    rw [madeAlone.owns.2] at member
    exact absurd member List.not_mem_nil
  have limits : History.SameLimits (before.cast context) ((History.start alone realm').cast context') := by
    have kept := History.sameLimits_afterAll behaviour (.start shared realm) earlier
    have same : History.SameLimits (.start shared realm) ((History.start alone realm').cast context') :=
      ⟨maxSteps, maxForks⟩
    exact ((History.sameLimits_after behaviour before (.cast context)).symm.trans kept.symm).trans same
  have mirrored : Mirrored embed { context with parent := none } before.realm { context' with parent := none } realm' :=
    ⟨⟨rename, mirrors.reparent none none⟩, standard⟩
  have abreast : History.Abreast embed (before.cast context) before.newcomer
      ((History.start alone realm').cast context') (History.start alone realm').newcomer :=
    ⟨limits, rfl, rfl, rfl, _, _, .of_cast spares fair, .of_cast sparesAlone fairAlone,
      mirrored.agree (fun _ _ => rfl) fun _ _ => rfl⟩
  have level : History.Level embed (before.cast context) before.scheduler.nextCast
      ((History.start alone realm').cast context') alone.nextCast := .abreast rfl rfl abreast
  exact (level.endings_eq carries discreet orderlyLater).symm

/-- Two casts count in cells of their own, and one of them is interrupted while it has a ward ahead. -/
theorem castsDoNotInterfere_countedApart :
    let markId : Identifier := ⟨Identifier.defaultSpace, "glyph_mark", Identifier.defaultSpace_isWord, by decide⟩
    let wardId : Identifier := ⟨Identifier.defaultSpace, "glyph_ward", Identifier.defaultSpace_isWord, by decide⟩
    let mark : Instruction Glyph := Glyph.instruction id 0 markId (.mark Glyph.marksId)
    let ward : Instruction Glyph := Glyph.instruction id 1 wardId .ward
    let context (cell : CellId) : Context Glyph :=
      { Context.ofProgram (.ofInstructions [mark, mark, ward]) with attachments := ⟨[(Glyph.marksId, cell)]⟩ }
    let scheduler : Scheduler Glyph := Scheduler.empty.withMaxSteps 1
    let realm : Realm := { Realm.empty with cells := ⟨#[.tally 5, .tally 7]⟩ }
    let realm' : Realm := { Realm.empty with cells := ⟨#[.tally 7]⟩ }
    let reason : CancelReason := .custom Glyph.marksId
    let earlier : List (Deed Glyph) := [.cast (context 0), .tick]
    let later : List (Deed Glyph) := [.tick, .cancel 2 reason, .tick]
    let before := (History.start scheduler realm).afterAll Glyph.behaviour earlier
    let endings := (before.cast (context 1)).endings Glyph.behaviour 2 later
    Glyph.behaviour.Carries id ∧ Glyph.behaviour.Discreet ∧ scheduler.Made ∧
      History.Orderly Glyph.behaviour (.start scheduler realm) (earlier ++ .cast (context 1) :: later) ∧
      (∀ instruction ∈ (context 1).program.instructions, Glyph.IsStandard id instruction) ∧
      (context 1).Mirrors (fun _ => 0) before.realm.cells (context 0) realm'.cells ∧
      endings = ((History.start scheduler realm').cast (context 0)).endings Glyph.behaviour 1
        [.tick, .cancel 1 reason, .tick] ∧
      endings.map (·.steps) = [1] ∧
      endings.map (·.contents) = [some [(Glyph.marksId, some (.tally 8), [Glyph.marksId])]] := by
  intro markId wardId mark ward context scheduler realm realm' reason earlier later before endings
  have made : scheduler.Made := .withMaxSteps 1 .empty
  have orderly : History.Orderly Glyph.behaviour (.start scheduler realm) (earlier ++ .cast (context 1) :: later) := by
    have spares : (History.start scheduler realm).Spares [0, 1] := History.spares_start made (by decide)
    exact spares.orderly Glyph.behaviour_discreet (by decide) (by simp [earlier, later])
  have standard : ∀ instruction ∈ (context 1).program.instructions, Glyph.IsStandard id instruction := by
    have marks : Glyph.IsStandard id mark := Glyph.isStandard_of_ofId? rfl (by decide) rfl 0
    refine List.forall_mem_cons.mpr ⟨marks, List.forall_mem_cons.mpr ⟨marks, ?_⟩⟩
    exact List.forall_mem_singleton.mpr (Glyph.isStandard_of_ofId? rfl (by decide) rfl 1)
  have mirrors : (context 1).Mirrors (fun _ => 0) before.realm.cells (context 0) realm'.cells := by
    refine ⟨rfl, rfl, ?_, ?_⟩
    · intro cell member other otherMember _
      exact (List.mem_singleton.mp member).trans (List.mem_singleton.mp otherMember).symm
    · intro cell member
      obtain rfl := List.mem_singleton.mp member
      exact ⟨.tally 7, rfl, rfl⟩
  have same := castsDoNotInterfere Glyph.behaviour_carries Glyph.behaviour_discreet made made rfl rfl orderly standard
    mirrors
  exact ⟨Glyph.behaviour_carries, Glyph.behaviour_discreet, made, orderly, standard, mirrors, same, by decide,
    by decide⟩

end Spellcast
