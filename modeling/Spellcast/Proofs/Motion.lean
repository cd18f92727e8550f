import Mathlib.Data.List.Induction
import Spellcast.Proofs.Standard.Contexts

/-!
# How standard casts move the world

A jump throws whoever acts for its context, and moves the placeholder if that acts for a site; nothing else that a
standard cast does touches the world. Who exists does not change while a tick runs, so who acts for a context can be
told from the world before the tick, and the world after it from the contexts in which jumps have run
(`World.Thrown`).
-/

namespace Spellcast

variable {κ : Type} {behaviour : Behaviour κ} {embed : Glyph → κ} {maxSteps maxForks : Nat}
  {others : List InFlight}

namespace Context

variable {context : Context κ} {world : World}

/-- Who acts for the context: its caster if it still exists, and otherwise the placeholder. -/
def target (context : Context κ) (world : World) : EntityId :=
  match context.caster? world with
  | some entity => entity.id
  | none => 0

/-- Where the placeholder goes to act for the context: to the site if there is one and no caster. -/
def place? (context : Context κ) (world : World) : Option Position :=
  match context.caster? world with
  | some _ => none
  | none => (context.site? world).map Site.position

/-- The world after a jump in the context. -/
def thrown (context : Context κ) (world : World) : World :=
  let (target, world) := context.resolveCaster world
  world.modifyEntity target fun entity =>
    { entity with velocity := { entity.velocity with y := Glyph.defaultStrength } }

/-- The placeholder goes to its place first, and then whoever acts is thrown. -/
theorem thrown_eq (context : Context κ) (world : World) :
    context.thrown world =
      ({ world with
          placeholder :=
            { world.placeholder with
              position := (context.place? world).getD world.placeholder.position } } : World).modifyEntity
        (context.target world) fun entity =>
          { entity with velocity := { entity.velocity with y := Glyph.defaultStrength } } := by
  simp only [thrown, resolveCaster, target, place?]
  cases context.caster? world with
  | some entity =>
      rfl
  | none =>
      cases context.site? world with
      | some site => rfl
      | none => rfl

end Context

namespace World

variable {world before after : World} {contexts : List (Context κ)} {context : Context κ} {id : EntityId}

/-- The placeholder, and only it, has number zero. -/
structure Proper (world : World) : Prop where
  placeholder : world.placeholder.id = 0
  entities : ∀ entity ∈ world.entities, entity.id ≠ 0
  next : world.nextEntity ≠ 0

theorem proper_empty : World.empty.Proper :=
  ⟨rfl, fun _ nothing => absurd nothing List.not_mem_nil, Nat.one_ne_zero⟩

theorem Proper.spawn
    (proper : world.Proper)
    (name : String) :
    (world.spawn name).2.Proper where
  placeholder := proper.placeholder
  entities entity member := by
    rcases List.mem_append.mp member with old | new
    · exact proper.entities entity old
    · rw [List.mem_singleton.mp new]
      exact proper.next
  next := Nat.succ_ne_zero _

theorem Proper.forget
    (proper : world.Proper) :
    world.forget.Proper :=
  ⟨proper.placeholder, fun entity member => proper.entities entity (List.mem_filter.mp member).1, proper.next⟩

theorem Proper.map
    (proper : world.Proper)
    (change : Entity → Entity)
    (same : ∀ entity, (change entity).id = entity.id) :
    ({ world with entities := world.entities.map change } : World).Proper where
  placeholder := proper.placeholder
  entities entity member := by
    obtain ⟨old, oldMember, rfl⟩ := List.mem_map.mp member
    rw [same]
    exact proper.entities old oldMember
  next := proper.next

theorem Proper.modifyEntity
    (proper : world.Proper)
    (change : Entity → Entity)
    (same : ∀ entity, (change entity).id = entity.id)
    (id : EntityId) :
    (world.modifyEntity id change).Proper := by
  unfold World.modifyEntity
  split
  · exact ⟨(same _).trans proper.placeholder, proper.entities, proper.next⟩
  · refine proper.map _ ?_
    intro entity
    split
    · exact same entity
    · rfl

theorem Proper.despawn
    (proper : world.Proper)
    (id : EntityId) :
    (world.despawn id).2.Proper := by
  unfold World.despawn
  split
  · exact proper
  · refine Proper.forget ?_
    refine proper.map _ ?_
    intro entity
    split
    · rfl
    · rfl

theorem Proper.hold
    (proper : world.Proper)
    (id : EntityId) :
    (world.hold id).Proper :=
  proper.modifyEntity (fun entity => { entity with held := true }) (fun _ => rfl) id

theorem Proper.letGo
    (proper : world.Proper) :
    world.letGo.Proper :=
  (proper.map (fun entity => { entity with held := false }) fun _ => rfl).forget

theorem Proper.sites
    (proper : world.Proper)
    (sites : List (SiteId × Site))
    (nextSite : SiteId) :
    ({ world with sites, nextSite } : World).Proper :=
  ⟨proper.placeholder, proper.entities, proper.next⟩

/-- How fast an entity rises after jumps in some contexts. -/
def risingAfter (before : World) (contexts : List (Context κ)) (entity : Entity) : Binary64 :=
  if contexts.any (·.target before == entity.id) then Glyph.defaultStrength else entity.velocity.y

/-- The world has changed by jumps in some contexts and by nothing else. -/
structure Thrown (before : World) (contexts : List (Context κ)) (after : World) : Prop where
  placeholder : after.placeholder =
    { before.placeholder with
      position := ((contexts.filterMap (·.place? before)).getLast?).getD before.placeholder.position
      velocity := { before.placeholder.velocity with y := before.risingAfter contexts before.placeholder } }
  entities : after.entities = before.entities.map fun entity =>
    { entity with velocity := { entity.velocity with y := before.risingAfter contexts entity } }
  sites : after.sites = before.sites
  next : after.nextEntity = before.nextEntity

theorem Thrown.refl (world : World) : Thrown world ([] : List (Context κ)) world where
  placeholder := rfl
  entities := (List.map_id _).symm
  sites := rfl
  next := rfl

theorem Thrown.proper
    (thrown : Thrown before contexts after)
    (proper : before.Proper) :
    after.Proper where
  placeholder := by
    rw [thrown.placeholder]
    exact proper.placeholder
  entities entity member := by
    rw [thrown.entities] at member
    obtain ⟨old, oldMember, rfl⟩ := List.mem_map.mp member
    exact proper.entities old oldMember
  next := thrown.next ▸ proper.next

/-- Who exists, and how everybody moves. -/
theorem Thrown.entity?
    (thrown : Thrown before contexts after)
    (id : EntityId) :
    after.entity? id = (before.entity? id).map fun entity =>
      { entity with
        position := if id = 0 then after.placeholder.position else entity.position
        velocity := { entity.velocity with y := before.risingAfter contexts entity } } := by
  by_cases isPlaceholder : id = 0
  · simp [World.entity?, isPlaceholder, thrown.placeholder]
  · simp only [World.entity?, isPlaceholder, if_false, thrown.entities, List.find?_map]
    rfl

theorem Thrown.target
    (thrown : Thrown before contexts after)
    (context : Context κ) :
    context.target after = context.target before := by
  simp only [Context.target, Context.caster?]
  cases context.caster with
  | none =>
      rfl
  | some caster =>
      simp only [Option.bind_some, thrown.entity? caster]
      cases before.entity? caster with
      | none => rfl
      | some entity => rfl

theorem Thrown.place?
    (thrown : Thrown before contexts after)
    (context : Context κ) :
    context.place? after = context.place? before := by
  have sites : context.site? after = context.site? before := by
    have same (id : SiteId) : after.site? id = before.site? id := by
      rw [World.site?, World.site?, thrown.sites]
    simp only [Context.site?, funext same]
  simp only [Context.place?, Context.caster?, sites]
  cases context.caster with
  | none =>
      rfl
  | some caster =>
      simp only [Option.bind_some, thrown.entity? caster]
      cases before.entity? caster with
      | none => rfl
      | some entity => rfl

theorem risingAfter_append
    (entity : Entity) :
    before.risingAfter (contexts ++ [context]) entity =
      if context.target before = entity.id then Glyph.defaultStrength else before.risingAfter contexts entity := by
  by_cases isTarget : context.target before = entity.id
  · simp [risingAfter, isTarget]
  · simp [risingAfter, isTarget]

/-- One more jump. -/
theorem Thrown.throw
    (thrown : Thrown before contexts after)
    (proper : before.Proper)
    (context : Context κ) :
    Thrown before (contexts ++ [context]) (context.thrown after) := by
  have position : (((contexts ++ [context]).filterMap (·.place? before)).getLast?).getD
        before.placeholder.position =
      (context.place? before).getD after.placeholder.position := by
    rw [thrown.placeholder, List.filterMap_append]
    cases placed : context.place? before with
    | none => simp [placed]
    | some place => simp [placed]
  rw [context.thrown_eq, thrown.target, thrown.place?]
  by_cases isPlaceholder : context.target before = 0
  · -- nobody else has the number of the placeholder
    have acts : context.target before = before.placeholder.id := isPlaceholder.trans proper.placeholder.symm
    refine ⟨?_, ?_, ?_, ?_⟩
    · rw [risingAfter_append, if_pos acts, position]
      simp [World.modifyEntity, isPlaceholder, thrown.placeholder]
    · simp only [World.modifyEntity, isPlaceholder, if_true, thrown.entities]
      apply List.map_congr_left
      intro entity member
      have other : context.target before ≠ entity.id := by
        rw [isPlaceholder]
        exact (proper.entities entity member).symm
      rw [risingAfter_append, if_neg other]
    · simp [World.modifyEntity, isPlaceholder, thrown.sites]
    · simp [World.modifyEntity, isPlaceholder, thrown.next]
  · have other : context.target before ≠ before.placeholder.id := by
      rw [proper.placeholder]
      exact isPlaceholder
    refine ⟨?_, ?_, ?_, ?_⟩
    · rw [risingAfter_append, if_neg other, position]
      simp [World.modifyEntity, isPlaceholder, thrown.placeholder]
    · simp only [World.modifyEntity, isPlaceholder, if_false, thrown.entities, List.map_map]
      apply List.map_congr_left
      intro entity member
      by_cases isTarget : context.target before = entity.id
      · simp [risingAfter_append, isTarget]
      · have apart : ¬ entity.id = context.target before := fun same => isTarget same.symm
        simp [risingAfter_append, isTarget, apart]
    · simp [World.modifyEntity, isPlaceholder, thrown.sites]
    · simp [World.modifyEntity, isPlaceholder, thrown.next]

/-- Jumps one after the other. -/
theorem thrown_foldl
    (proper : world.Proper)
    (contexts : List (Context κ)) :
    Thrown world contexts (contexts.foldl (fun world context => context.thrown world) world) := by
  induction contexts using List.reverseRecOn with
  | nil =>
      exact .refl world
  | append_singleton contexts last inductionHypothesis =>
      rw [List.foldl_append, List.foldl_cons, List.foldl_nil]
      exact inductionHypothesis.throw proper last

end World

/-- The world after an act: only a jump changes it. -/
def Act.impact (world : World) (act : Act κ) : World :=
  if act.instruction.isJump then act.context.thrown world else world

theorem Glyph.cast_world
    {id : Identifier}
    {glyph : Glyph}
    (known : ofId? id = some glyph)
    (context : Context κ)
    (realm : Realm) :
    (glyph.cast context realm).2.2.world =
      if id.path == "glyph_jump" then context.thrown realm.world else realm.world := by
  rcases ofId?_eq_some known with
    ⟨path, rfl⟩ | ⟨path, rfl⟩ | ⟨path, rfl⟩ | ⟨path, rfl⟩ | ⟨path, rfl⟩
  · simp only [path, beq_self_eq_true, if_true]
    rfl
  all_goals simp [path, cast, castMark, castDelay, Realm.emit]
  · -- a mark changes cells only, whether it finds its tally or not
    split
    · rfl
    · rfl

namespace Turn

variable {turn : Turn κ} {start : World} {acts : List (Act κ)}

/-- The world is what the acts have made of it. -/
structure Impact (embed : Glyph → κ) (start : World) (acts : List (Act κ)) (turn : Turn κ) : Prop where
  world : turn.realm.world = acts.foldl Act.impact start
  active : turn.Active (Context.Standard embed)

theorem Impact.step
    (carries : behaviour.Carries embed)
    (impact : Impact embed start acts turn)
    (owns : Owns turn.arena (turn.cast :: others)) :
    Impact embed start (acts ++ turn.act?.toList) (turn.step behaviour maxForks).1 := by
  refine ⟨?_, impact.active.step (Context.Standard.preserves carries) owns⟩
  rw [List.foldl_append, ← impact.world]
  obtain ⟨context, live⟩ := active_live owns
  have cases := step_cases behaviour maxForks live (known owns)
  generalize (turn.step behaviour maxForks).1 = after at cases ⊢
  generalize (turn.step behaviour maxForks).2 = goesOn at cases
  -- the instruction that runs has its impact, and what follows a wish to fork leaves the world alone
  have ran {context after : Context κ} {instruction : Instruction κ} {resolution : Resolution} {realm : Realm}
      (runs : turn.Runs behaviour context instruction resolution after realm) :
      realm.world = turn.act?.toList.foldl Act.impact turn.realm.world ∧ after.Standard embed := by
    have standard := impact.active context runs.live
    obtain ⟨glyph, isKnown, code⟩ := (standard.instruction runs.found).exists_glyph
    have answer := runs.cast
    rw [code, carries.cast] at answer
    have world := glyph.cast_world isKnown context.stepped (turn.castingRealm behaviour instruction)
    have program := glyph.cast_program context.stepped (turn.castingRealm behaviour instruction)
    rw [answer] at world program
    rw [runs.act?]
    refine ⟨world, ?_⟩
    rw [Context.Standard, program]
    exact standard
  cases cases with
  | exhausted found exhausted =>
      rw [act?_of_exhausted found exhausted]
      rfl
  | proceed runs =>
      exact (ran runs).1
  | limit runs _ =>
      exact (ran runs).1
  | fork runs _ =>
      exact (movedOn_sameWorld carries (ran runs).2).world.trans (ran runs).1

theorem impact_recounting
    (carries : behaviour.Carries embed)
    (maxForks : Nat)
    (others : List InFlight)
    (start : World) :
    Recounting behaviour maxForks others (Impact embed start) where
  announced _ _ impact := ⟨impact.world, impact.active⟩
  wake acts turn context owns live impact := by
    refine ⟨?_, impact.active.wake (Context.Standard.preserves carries) live⟩
    rw [← impact.world]
    have cases := wake_cases turn context
    generalize (turn.wake context).1 = woken at cases ⊢
    generalize (turn.wake context).2 = waits at cases
    cases cases with
    | awake _ => rfl
    | waits _ _ _ => rfl
    | resumes _ _ _ => rfl
  step _ _ owns impact := impact.step carries owns
  counted _ _ impact := ⟨impact.world, impact.active⟩
  left _ _ impact := ⟨impact.world, impact.active⟩

end Turn

namespace Scheduler

variable {scheduler : Scheduler κ} {round : Round κ} {cast : InFlight} {casts rest : List InFlight} {realm : Realm}

def jumpers (behaviour : Behaviour κ) (scheduler : Scheduler κ) (realm : Realm) : List (Context κ) :=
  ((scheduler.acts behaviour realm).filter (·.2.instruction.isJump)).map (·.2.context)

theorem visit_world
    (carries : behaviour.Carries embed)
    (maxSteps maxForks : Nat)
    (owns : Owns round.arena (round.staying ++ cast :: rest))
    (standard : (round.turn cast).Active (Context.Standard embed)) :
    (visit behaviour maxSteps maxForks round cast).realm.world =
      ((round.turn cast).actsTaken behaviour maxSteps maxForks).foldl Act.impact round.realm.world := by
  have impact := (Turn.impact_recounting carries maxForks (round.staying ++ rest) round.realm.world).take maxSteps
    (Round.turn_owns owns) ⟨rfl, standard⟩
  rw [← impact.world]
  rcases taken : (round.turn cast).take behaviour maxSteps maxForks with ⟨turn, verdict⟩
  cases verdict with
  | running =>
      rw [visit_of_running taken]
  | finished =>
      rw [visit_of_finished taken]
      rfl

theorem visits_world
    (carries : behaviour.Carries embed)
    (maxSteps maxForks : Nat)
    (owns : Owns round.arena (round.staying ++ casts))
    (standard : ∀ cast ∈ casts, (round.turn cast).Active (Context.Standard embed)) :
    (casts.foldl (visit behaviour maxSteps maxForks) round).realm.world =
      ((tracedFrom behaviour maxSteps maxForks (fun turn => turn.actsTaken behaviour maxSteps maxForks) round
        casts).map (·.2)).foldl Act.impact round.realm.world := by
  induction casts generalizing round with
  | nil =>
      rfl
  | cons first casts inductionHypothesis =>
      have visited := visit_world carries maxSteps maxForks owns (standard first List.mem_cons_self)
      have apart := visit_apart behaviour maxSteps maxForks owns
      have still : ∀ cast ∈ casts, ((visit behaviour maxSteps maxForks round first).turn cast).Active
          (Context.Standard embed) := by
        intro cast member context live
        have active := (owns.coherent cast (by simp [member])).active_mem
        have same := apart cast (List.mem_append_right _ member) cast.active active
        exact standard cast (List.mem_cons_of_mem _ member) context (same.symm.trans live)
      rw [List.foldl_cons, inductionHypothesis (visit_owns behaviour maxSteps maxForks owns) still, visited,
        tracedFrom, List.map_append, List.foldl_append, List.map_map]
      rw [show (Prod.snd ∘ fun act : Act κ => (first.id, act)) = id from rfl, List.map_id]

/-- A tick changes the world by its jumps. -/
theorem tick_world
    (carries : behaviour.Carries embed)
    (owns : Owns scheduler.arena scheduler.casts)
    (standard : ∀ cast ∈ scheduler.casts, ∀ context, scheduler.arena.get? cast.active = some context →
      context.Standard embed)
    (realm : Realm) :
    (scheduler.tick behaviour realm).2.2.world =
      (scheduler.jumpers behaviour realm).foldl (fun world context => context.thrown world) realm.world := by
  have opened : Owns (scheduler.opening realm).arena ((scheduler.opening realm).staying ++ scheduler.casts) := owns
  have visited := visits_world carries scheduler.maxSteps scheduler.maxForks opened
    standard
  change (scheduler.casts.foldl _ (scheduler.opening realm)).realm.world = _
  rw [visited, jumpers, List.foldl_map, List.foldl_map, List.foldl_filter]
  rfl

end Scheduler

section Reached

variable {rules : Rules κ} {scheduler : Scheduler κ} {realm : Realm} {history : History κ}

theorem History.cancel_world
    (carries : behaviour.Carries embed)
    (standard : history.Active (Context.Standard embed))
    (id : CastId)
    (reason : CancelReason) :
    (history.cancel behaviour id reason).realm.world = history.realm.world := by
  simp only [History.cancel, Scheduler.cancelCast]
  split
  · rfl
  · next active found =>
    split
    · rfl
    · next context live =>
      obtain ⟨target, foundTarget, rfl⟩ := Option.map_eq_some_iff.mp found
      have member := (Scheduler.find?_mem foundTarget).1
      obtain ⟨_, -, -, same⟩ := (standard target member context live).cancel carries reason
        ((history.realm.enter _).emit _)
      exact same.world

theorem History.terminate_world (history : History κ) (id : CastId) :
    (history.terminate id).realm.world = history.realm.world := by
  simp only [History.terminate, Scheduler.terminateCast]
  split
  · rfl
  · split
    · rfl
    · rfl

/-- Standard casts leave the placeholder the only one with its number. -/
theorem Reaches.properWorld
    (carries : behaviour.Carries embed)
    (made : scheduler.Made)
    (proper : realm.world.Proper)
    (allowed : ∀ context, rules.calls (.cast context) → context.Standard embed)
    (outside : ∀ before after, rules.outside before after → before.world.Proper → after.world.Proper)
    (reached : Reaches rules behaviour (.start scheduler realm) history) :
    history.Active (Context.Standard embed) ∧ history.realm.world.Proper := by
  have preserves := Context.Standard.preserves carries
  have start : Reaches rules behaviour (.start scheduler realm) (.start scheduler realm) := .origin
  have nobody : (History.start scheduler realm).Active (Context.Standard embed) :=
    start.active preserves made allowed
  have stable := History.accounts_stable behaviour rules
  refine (reached.obeys (fun history => (history.Owns ∧ history.Accounts) ∧
    history.Active (Context.Standard embed) ∧ history.realm.world.Proper)
    ⟨⟨start.owns made, start.accounts made⟩, nobody, proper⟩ ?_ ?_ ?_ ?_ ?_).2
  · rintro history context isAllowed ⟨both, active, world⟩
    exact ⟨stable.cast history context both, active.cast preserves both.1 (allowed context isAllowed), world⟩
  · rintro history ⟨both, active, world⟩
    refine ⟨stable.tick history both, active.tick preserves both.1 both.2, ?_⟩
    have ticked := Scheduler.tick_world carries both.1 active history.realm
    change (history.scheduler.tick behaviour history.realm).2.2.world.Proper
    rw [ticked]
    exact (World.thrown_foldl world _).proper world
  · rintro history id reason isAllowed ⟨both, active, world⟩
    refine ⟨stable.cancel history id reason isAllowed both, active.cancel preserves id reason, ?_⟩
    rw [History.cancel_world carries active]
    exact world
  · rintro history id isAllowed ⟨both, active, world⟩
    refine ⟨stable.terminate history id isAllowed both, active.terminate preserves id, ?_⟩
    rw [History.terminate_world]
    exact world
  · rintro history realm isAllowed ⟨both, active, world⟩
    exact ⟨stable.outside history realm both, active, outside _ _ isAllowed world⟩

/-- A tick of standard casts leaves everybody in the world, in the same place and with the same motion across the
ground. Those rise with the strength of a jump for whose contexts a jump has run, and everybody else as before; only
the placeholder is moved, to the last site for which it has jumped. Nothing else that the owner of the scheduler does
touches the world. -/
theorem standardCastsOnlyThrow
    (carries : behaviour.Carries embed)
    (made : scheduler.Made)
    (proper : realm.world.Proper)
    (allowed : ∀ context, rules.calls (.cast context) → context.Standard embed)
    (outside : ∀ before after, rules.outside before after → before.world.Proper → after.world.Proper)
    (reached : Reaches rules behaviour (.start scheduler realm) history) :
    let before := history.realm.world
    let after := (history.tick behaviour).realm.world
    let jumpers := history.scheduler.jumpers behaviour history.realm
    (∀ id, after.entity? id = none ↔ before.entity? id = none) ∧
    (∀ id earlier later, before.entity? id = some earlier → after.entity? id = some later →
      later.velocity.x = earlier.velocity.x ∧ later.velocity.z = earlier.velocity.z ∧
      (id ≠ 0 → later.position = earlier.position) ∧
      ((∃ context ∈ jumpers, context.target before = id) → later.velocity.y = Glyph.defaultStrength) ∧
      ((∀ context ∈ jumpers, context.target before ≠ id) → later.velocity.y = earlier.velocity.y)) ∧
    after.placeholder.position =
      ((jumpers.filterMap (·.place? before)).getLast?).getD before.placeholder.position ∧
    (∀ id, after.site? id = before.site? id) ∧
    (∀ context, (history.cast context).realm.world = before) ∧
    (∀ id reason, (history.cancel behaviour id reason).realm.world = before) ∧
    ∀ id, (history.terminate id).realm.world = before := by
  intro before after jumpers
  obtain ⟨active, world⟩ := reached.properWorld carries made proper allowed outside
  have ticked : after = jumpers.foldl (fun world context => context.thrown world) before :=
    Scheduler.tick_world carries (reached.owns made) active history.realm
  have thrown : World.Thrown before jumpers after := ticked ▸ World.thrown_foldl world jumpers
  refine ⟨?_, ?_, ?_, ?_, fun _ => rfl, ?_, fun id => history.terminate_world id⟩
  · intro id
    rw [thrown.entity?, Option.map_eq_none_iff]
  · intro id earlier later foundEarlier foundLater
    have isId : earlier.id = id := by
      by_cases isPlaceholder : id = 0
      · rw [World.entity?, if_pos isPlaceholder] at foundEarlier
        rw [← Option.some.inj foundEarlier, isPlaceholder]
        exact world.placeholder
      · rw [World.entity?, if_neg isPlaceholder] at foundEarlier
        simpa using List.find?_some foundEarlier
    rw [thrown.entity?, foundEarlier] at foundLater
    obtain rfl := Option.some.inj foundLater
    refine ⟨rfl, rfl, fun notPlaceholder => if_neg notPlaceholder, ?_, ?_⟩
    · rintro ⟨context, member, isTarget⟩
      have jumped : jumpers.any (·.target before == earlier.id) = true :=
        List.any_eq_true.mpr ⟨context, member, by simp [isTarget, isId]⟩
      simp [World.risingAfter, jumped]
    · intro jumpless
      have nobody : jumpers.any (·.target before == earlier.id) = false := by
        rw [List.any_eq_false]
        intro context member
        simpa [isId] using jumpless context member
      simp [World.risingAfter, nobody]
  · rw [thrown.placeholder]
  · intro id
    rw [World.site?, World.site?, thrown.sites]
  · exact fun id reason => History.cancel_world carries active id reason

end Reached

/-- A caster that dies before its jump comes to run, so that the placeholder jumps for the site instead. -/
theorem standardCastsOnlyThrow_deadCaster :
    let jump : Instruction Glyph := Glyph.instruction id 0 Glyph.jumpId (.jump Glyph.defaultStrength)
    let world := ((World.empty.spawn "Alex").2.build ⟨"rune", 4, 64, -2⟩).2
    let rules : Rules Glyph :=
      ⟨fun call => ∀ context, call = .cast context → context.Standard id,
        fun before after => after = { before with world := (before.world.despawn 1).2 }⟩
    let fresh : History Glyph := .start .empty { Realm.empty with world }
    let context : Context Glyph := { Context.ofProgram (.ofInstructions [jump]) with caster := some 1, site := some 0 }
    let begun := fresh.cast context
    let history : History Glyph := { begun with realm := { begun.realm with world := (begun.realm.world.despawn 1).2 } }
    Scheduler.Made fresh.scheduler ∧ fresh.realm.world.Proper ∧
      (∀ context, rules.calls (.cast context) → context.Standard id) ∧
      (∀ before after, rules.outside before after → before.world.Proper → after.world.Proper) ∧
      Reaches rules Glyph.behaviour fresh history ∧
      context.target begun.realm.world = 1 ∧ context.target history.realm.world = 0 ∧
      (history.tick Glyph.behaviour).realm.world.placeholder.position = (Site.mk "rune" 4 64 (-2)).position ∧
      (history.tick Glyph.behaviour).realm.world.placeholder.velocity.y = Glyph.defaultStrength := by
  intro jump world rules fresh context begun history
  have proper : fresh.realm.world.Proper := (World.proper_empty.spawn "Alex").sites _ _
  have allowed : ∀ context, rules.calls (.cast context) → context.Standard id := fun context isAllowed =>
    isAllowed context rfl
  have outside : ∀ before after, rules.outside before after → before.world.Proper → after.world.Proper := by
    rintro before after rfl proper
    exact proper.despawn 1
  have standard : context.Standard id := by
    intro instruction member
    rw [List.mem_singleton.mp member]
    exact Glyph.isStandard_jump 0
  have reached : Reaches rules Glyph.behaviour fresh history := by
    refine .outside _ (.call (.cast context) .origin ?_) rfl
    rintro other same
    rw [← Call.cast.inj same]
    exact standard
  have statement := standardCastsOnlyThrow Glyph.behaviour_carries .empty proper allowed outside reached
  refine ⟨.empty, proper, allowed, outside, reached, by decide, by decide, ?_, ?_⟩
  · have places : (history.scheduler.jumpers Glyph.behaviour history.realm).filterMap
        (·.place? history.realm.world) = [(Site.mk "rune" 4 64 (-2)).position] := rfl
    rw [statement.2.2.1, places]
    rfl
  · have jumped : ∃ jumper ∈ history.scheduler.jumpers Glyph.behaviour history.realm,
        jumper.target history.realm.world = 0 := ⟨_, List.mem_singleton_self _, by decide⟩
    exact (statement.2.1 0 _ _ rfl rfl).2.2.2.1 jumped

end Spellcast
