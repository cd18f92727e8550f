import Spellcast.Proofs.Observers.Cells

/-!
# Contexts that differ in their observers

`bare` takes the observers away from the instructions of a program. Two contexts that are the same without their
observers run alike as long as effects and manipulators do not look at observers, and observers change nothing but the
context that they are handed. For when a fork tells the observers, the child has been made already, and the context that
they are handed is left behind.

Manipulators may themselves hold programs, so there may be different ones on both sides as well. A view of their codes
says which of them count as the same.
-/

namespace Spellcast

variable {κ : Type} {view : κ → κ} {known : CellId → Prop} {behaviour : Behaviour κ}

/-- The instruction without its observer, and with no more of its manipulator than the view shows. -/
def Instruction.bare (view : κ → κ) (instruction : Instruction κ) : Instruction κ :=
  { instruction with observer := none, manipulator := instruction.manipulator.map view }

def Program.bare (view : κ → κ) (program : Program κ) : Program κ :=
  { program with instructions := program.instructions.map (·.bare view) }

/-- The context without the observers in its program, and without its attachments, which are compared cell by cell. -/
def Context.bare (view : κ → κ) (context : Context κ) : Context κ :=
  { context with program := context.program.bare view, attachments := .empty }

/-- A realm in which nothing has changed since but the log and cells that were not there before. -/
structure Realm.Keeps (realm later : Realm) : Prop where
  world : later.world = realm.world
  journal : later.journal = realm.journal
  cells : ∀ cell, realm.cells.Has cell → later.cells.Has cell ∧ later.cells.read? cell = realm.cells.read? cell

/-- Two contexts, each in its realm, are the same but for their observers and for the numbers of their cells. -/
structure Context.Paired (view : κ → κ) (pairs : CellId → CellId → Prop) (first : Context κ) (realm : Realm)
    (second : Context κ) (realm' : Realm) : Prop where
  bare : second.bare view = first.bare view
  attachments : first.attachments.Paired pairs second.attachments
  world : realm'.world = realm.world
  journal : realm'.journal = realm.journal
  cells : realm.cells.Paired pairs realm'.cells

/-- Two contexts, each in its realm, are the same but for their observers and for the numbers of cells, other than the
cells that instructions may know of. -/
def Context.SameBare (view : κ → κ) (known : CellId → Prop) (first : Context κ) (realm : Realm) (second : Context κ)
    (realm' : Realm) : Prop :=
  ∃ pairs : CellId → CellId → Prop, (∀ cell, known cell → pairs cell cell) ∧ first.Paired view pairs realm second realm'

/-- Effects and manipulators answer the same whatever the observers of the program are, up to observers and to the
numbers of cells. Observers change nothing but the context that they are handed: values that are attached already may be
shared with others, so they only attach new ones. -/
structure Behaviour.IgnoresObservers (view : κ → κ) (known : CellId → Prop) (behaviour : Behaviour κ) : Prop where
  cast (code : κ) {first second : Context κ} {realm realm' : Realm} :
    first.SameBare view known realm second realm' →
      let answer := behaviour.cast code first realm
      let answer' := behaviour.cast code second realm'
      answer'.1 = answer.1 ∧ answer.2.1.SameBare view known answer.2.2 answer'.2.1 answer'.2.2
  wantsPush {code code' : κ} {first second : Context κ} {realm realm' : Realm} :
    view code' = view code → first.SameBare view known realm second realm' →
      let answer := behaviour.wantsPush code first realm
      let answer' := behaviour.wantsPush code' second realm'
      answer'.1 = answer.1 ∧ first.SameBare view known answer.2 second answer'.2
  propose {code code' : κ} {first second : Context κ} {realm realm' : Realm} :
    view code' = view code → first.SameBare view known realm second realm' →
      let answer := behaviour.propose code first realm
      let answer' := behaviour.propose code' second realm'
      first.SameBare view known answer.2 second answer'.2 ∧
        Option.Rel (fun child child' => child.SameBare view known answer.2 child' answer'.2) answer.1 answer'.1
  notify (code : κ) (context : Context κ) (realm : Realm) : realm.Keeps (behaviour.notify code context realm).2.2

namespace Realm.Keeps

variable {realm later latest : Realm}

theorem refl (realm : Realm) : realm.Keeps realm := ⟨rfl, rfl, fun _ has => ⟨has, rfl⟩⟩

theorem trans
    (keeps : realm.Keeps later)
    (further : later.Keeps latest) :
    realm.Keeps latest where
  world := further.world.trans keeps.world
  journal := further.journal.trans keeps.journal
  cells cell has := by
    obtain ⟨stillHas, same⟩ := keeps.cells cell has
    obtain ⟨hasAfter, sameAfter⟩ := further.cells cell stillHas
    exact ⟨hasAfter, sameAfter.trans same⟩

end Realm.Keeps

theorem Realm.SameWorld.keeps
    {realm later : Realm}
    (same : realm.SameWorld later) :
    realm.Keeps later where
  world := same.world
  journal := same.journal
  cells cell has := by
    rw [same.cells]
    exact ⟨has, rfl⟩

namespace Context

variable {first second : Context κ} {realm realm' : Realm}

namespace SameBare

/-- Contexts that differ in their observers, both in one realm. -/
theorem of_bare
    (bare : second.bare view = first.bare view)
    (attachments : second.attachments = first.attachments)
    (held : ∀ cell ∈ first.cells, realm.cells.Has cell) :
    first.SameBare view realm.cells.Has realm second realm := by
  refine ⟨fun cell cell' => cell' = cell ∧ realm.cells.Has cell, fun _ has => ⟨rfl, has⟩, bare, ?_, rfl, rfl, ?_, ?_⟩
  · rw [attachments]
    exact List.forall₂_same.mpr fun entry member => ⟨rfl, rfl, held _ (List.mem_map_of_mem member)⟩
  · rintro cell _ other _ ⟨rfl, -⟩ ⟨rfl, -⟩
    exact Iff.rfl
  · rintro cell _ ⟨rfl, has⟩
    obtain ⟨value, found⟩ := Cells.has_iff.mp has
    exact ⟨value, found, found⟩

theorem keeps
    {later later' : Realm}
    (same : first.SameBare view known realm second realm')
    (keeps : realm.Keeps later)
    (keeps' : realm'.Keeps later') :
    first.SameBare view known later second later' := by
  obtain ⟨pairs, knows, paired⟩ := same
  refine ⟨pairs, knows, paired.bare, paired.attachments, ?_, ?_, ?_⟩
  · rw [keeps.world, keeps'.world, paired.world]
  · rw [keeps.journal, keeps'.journal, paired.journal]
  · exact paired.cells.kept (fun cell has => (keeps.cells cell has).2) fun cell has => (keeps'.cells cell has).2

/-- Changes that have nothing to do with attachments. -/
theorem change
    {after after' : Context κ}
    (same : first.SameBare view known realm second realm')
    (bare : after'.bare view = after.bare view)
    (kept : after.attachments = first.attachments)
    (kept' : after'.attachments = second.attachments) :
    after.SameBare view known realm after' realm' := by
  obtain ⟨pairs, knows, paired⟩ := same
  refine ⟨pairs, knows, bare, ?_, paired.world, paired.journal, paired.cells⟩
  rw [kept, kept']
  exact paired.attachments

theorem bare
    (same : first.SameBare view known realm second realm') :
    second.bare view = first.bare view := by
  obtain ⟨_, -, paired⟩ := same
  exact paired.bare

theorem sameView
    (same : first.SameBare view known realm second realm') :
    first.SameView (·.bare view) second where
  program := congrArg (·.program.instructions) same.bare
  counter := congrArg (·.counter) same.bare
  canceled := congrArg (·.canceled) same.bare
  suspended := congrArg (·.isSuspended) same.bare

theorem remainder
    (same : first.SameBare view known realm second realm') :
    second.remainder.bare view = first.remainder.bare view := by
  have commutes (context : Context κ) : context.remainder.bare view = (context.bare view).remainder := by
    simp only [Context.remainder, Program.remainderFrom, Program.bare, Context.bare, List.map_drop]
  rw [commutes, commutes, same.bare]

theorem contents
    (same : first.SameBare view known realm second realm') :
    second.contents realm'.cells = first.contents realm.cells := by
  obtain ⟨_, -, paired⟩ := same
  obtain ⟨_, mirrors⟩ := paired.attachments.mirrors paired.cells
  exact contents_of_mirrors mirrors

end SameBare

/-- Observers that are told of a cancellation leave no trace outside of the context. -/
theorem cancel_keeps
    (ignores : behaviour.IgnoresObservers view known)
    (context : Context κ)
    (reason : CancelReason)
    (realm : Realm) :
    realm.Keeps (context.cancel behaviour reason realm).2 := by
  have kept : ∀ instruction ∈ context.remainder.instructions, ∀ observer, instruction.observer = some observer →
      ∀ told noted, realm.Keeps noted → realm.Keeps (behaviour.notify observer told noted).2.2 :=
    fun _ _ observer _ told noted keeps => keeps.trans (ignores.notify observer told noted)
  have walked := walk_lasts kept
    { context := { context with canceled := true, cancelReason := some reason }, realm, told := 0, absorbed := false }
    (.refl realm)
  exact walked.trans ((Realm.SameWorld.refl _).emit _).keeps

theorem makeChild_bare
    (ignores : behaviour.IgnoresObservers view known)
    (same : first.SameBare view known realm second realm')
    (self : ContextId) :
    let made := first.makeChild behaviour self realm
    let made' := second.makeChild behaviour self realm'
    first.SameBare view known made.2 second made'.2 ∧
      made.1.context.SameBare view known made.2 made'.1.context made'.2 := by
  have answer {instruction instruction' : Instruction κ} (sameLook : instruction.bare view = instruction'.bare view) :
      Option.Rel (AnswerAlike behaviour (SameBare view known) first second) instruction.manipulator
        instruction'.manipulator := by
    have manipulators : instruction.manipulator.map view = instruction'.manipulator.map view :=
      congrArg (·.manipulator) sameLook
    cases manipulates : instruction.manipulator with
    | none =>
        rw [manipulates, Option.map_none, eq_comm, Option.map_eq_none_iff] at manipulators
        rw [manipulators]
        exact .none
    | some code =>
        rw [manipulates, Option.map_some, eq_comm, Option.map_eq_some_iff] at manipulators
        obtain ⟨code', manipulates', sameCode⟩ := manipulators
        rw [manipulates']
        exact .some ⟨ignores.wantsPush sameCode, ignores.propose sameCode⟩
  have sameLooks : List.Forall₂ (· = ·) (first.remainder.instructions.map (·.bare view))
      (second.remainder.instructions.map (·.bare view)) := by
    rw [List.forall₂_eq_eq_eq]
    exact (congrArg Program.instructions same.remainder).symm
  have answers := (List.forall₂_map_left_iff.mp (List.forall₂_map_right_iff.mp sameLooks)).imp fun _ _ => answer
  refine makeChild_related ⟨fun same logged logged' => same.keeps logged.keeps logged'.keeps⟩ answers ?_ ?_ same
  · intro realm realm' same
    refine same.change ?_ rfl rfl
    -- a copy without observers is made from the context and what remains of it, both without observers
    let copy (context : Context κ) (program : Program κ) : Context κ :=
      { context with program, counter := 0, parent := some self }
    change copy (second.bare view) (second.remainder.bare view) = copy (first.bare view) (first.remainder.bare view)
    rw [same.bare, same.remainder]
  · intro child child' realm realm' sameChild
    refine sameChild.change ?_ rfl rfl
    exact congrArg (fun bare : Context κ => { bare with parent := some self }) sameChild.bare

end Context

/-- Contexts that are the same without their observers run alike. -/
theorem Behaviour.IgnoresObservers.simulates
    (ignores : behaviour.IgnoresObservers view known) :
    Simulates behaviour (·.bare view) (· = ·) (Context.SameBare view known) where
  logged same logged logged' := same.keeps logged.keeps logged'.keeps
  place same := same.sameView
  cast {_ _ _ _ instruction instruction'} same _ _ sameLook := by
    have sameCode : instruction'.effect.code = instruction.effect.code := congrArg (·.effect.code) sameLook
    rw [sameCode]
    exact ignores.cast _ (same.change (congrArg Context.stepped same.bare) rfl rfl)
  roused same :=
    ⟨congrArg (·.roused.2) same.bare, same.change (congrArg (·.roused.1) same.bare) rfl rfl⟩
  stopped same := same.change (congrArg Context.stopped same.bare) rfl rfl
  child same sameSelf := by
    subst sameSelf
    exact Context.makeChild_bare ignores same _
  -- the children were made before the observers are told, and whatever these do to the parents is left behind
  left {first second _ _ realm realm'} _ sameChild :=
    sameChild.keeps (Context.cancel_keeps ignores first .newContext realm)
      (Context.cancel_keeps ignores second .newContext realm')
  next same := by rw [same]

namespace Glyph

variable {first second : Context κ} {realm realm' : Realm}

theorem castJump_bare
    (same : first.SameBare view known realm second realm')
    (strength : Binary64) :
    first.SameBare view known (castJump strength first realm) second (castJump strength second realm') := by
  obtain ⟨pairs, knows, paired⟩ := same
  have caster : second.caster = first.caster := congrArg (·.caster) paired.bare
  have site : second.site = first.site := congrArg (·.site) paired.bare
  have target (world : World) : second.resolveCaster world = first.resolveCaster world := by
    simp only [Context.resolveCaster, Context.caster?, Context.site?, caster, site]
  refine ⟨pairs, knows, paired.bare, paired.attachments, ?_, paired.journal, paired.cells⟩
  simp only [castJump, target, paired.world]

theorem castDelay_bare
    (same : first.SameBare view known realm second realm')
    (ticks : Int) :
    (castDelay ticks second).1 = (castDelay ticks first).1 ∧
      (castDelay ticks first).2.SameBare view known realm (castDelay ticks second).2 realm' := by
  have length : second.program.length = first.program.length := same.sameView.length
  have counter : second.counter = first.counter := same.sameView.counter
  simp only [castDelay, length, counter]
  split
  · exact ⟨rfl, same⟩
  · exact ⟨rfl, same.change (congrArg (·.delay ticks) same.bare) rfl rfl⟩

/-- A mark counts in partners, or makes new cells that are partners from then on. -/
theorem castMark_bare
    (same : first.SameBare view known realm second realm')
    (counter : Identifier) :
    (castMark counter first realm).1.SameBare view known (castMark counter first realm).2
      (castMark counter second realm').1 (castMark counter second realm').2 := by
  obtain ⟨pairs, knows, paired⟩ := same
  have tagged : ∀ attachments attachments',
      Context.bare view { second with
        attachments := attachments', tag := Fields.insert lastMarkKey (.nat (second.counter - 1)) second.tag } =
      Context.bare view { first with
        attachments, tag := Fields.insert lastMarkKey (.nat (first.counter - 1)) first.tag } :=
    fun _ _ => congrArg (fun bare : Context κ =>
      { bare with tag := Fields.insert lastMarkKey (.nat (bare.counter - 1)) bare.tag }) paired.bare
  have held := paired.attachments.cell? counter
  rcases found : first.attachments.cell? counter with _ | cell
  · rcases found' : second.attachments.cell? counter with _ | cell'
    · simp only [castMark, AttachmentStore.getOrInsert_of_absent found, AttachmentStore.getOrInsert_of_absent found']
      let pairs' := CellId.pairsWith pairs (realm.cells.allocate (.tally 0)).1 (realm'.cells.allocate (.tally 0)).1
      have partners : pairs' (realm.cells.allocate (.tally 0)).1 (realm'.cells.allocate (.tally 0)).1 := .inr ⟨rfl, rfl⟩
      have larger : ∀ cell cell', pairs cell cell' → pairs' cell cell' := fun _ _ partners => .inl partners
      have inserted := (paired.attachments.mono larger).insertShared partners counter
      exact ⟨pairs', fun cell isKnown => larger _ _ (knows cell isKnown), tagged _ _, inserted, paired.world,
        paired.journal, (paired.cells.allocate (.tally 0)).add partners 1⟩
    · rw [found, found'] at held
      cases held
  · rcases found' : second.attachments.cell? counter with _ | cell'
    · rw [found, found'] at held
      cases held
    · rw [found, found'] at held
      have partners : pairs cell cell' := Option.rel_some_some.mp held
      obtain ⟨value, read, read'⟩ := paired.cells.values partners
      simp only [castMark, AttachmentStore.getOrInsert_of_present found read,
        AttachmentStore.getOrInsert_of_present found' read']
      by_cases tally : value.kind = CellValue.kind (.tally 0)
      · simp only [if_pos tally]
        exact ⟨pairs, knows, tagged _ _, paired.attachments, paired.world, paired.journal, paired.cells.add partners 1⟩
      · simp only [if_neg tally]
        exact ⟨pairs, knows, tagged _ _, paired.attachments, paired.world, paired.journal, paired.cells⟩

theorem unroll?_bare
    (id : Identifier)
    (times : Nat)
    (program : Program κ) :
    unroll? id times (program.bare view) = (unroll? id times program).map (·.bare view) := by
  have sameId : (fun instruction : Instruction κ => instruction.id != id) ∘ Instruction.bare view =
      fun instruction => instruction.id != id := rfl
  simp only [unroll?, Program.bare, List.span_eq_takeWhile_dropWhile, List.takeWhile_map, List.dropWhile_map, sameId]
  cases program.instructions.dropWhile (·.id != id) with
  | nil => rfl
  | cons echo after => simp

/-- Glyphs do not look at observers, whatever it is that these do. -/
theorem ignoresObservers
    (known : CellId → Prop)
    (notify : Glyph → Context Glyph → Realm → Bool × Context Glyph × Realm)
    (keeps : ∀ glyph context (realm : Realm), realm.Keeps (notify glyph context realm).2.2) :
    ({ Glyph.behaviour with notify } : Behaviour Glyph).IgnoresObservers id known where
  cast glyph _ _ _ _ same := by
    cases glyph with
    | jump strength => exact ⟨rfl, castJump_bare same strength⟩
    | delay ticks => exact castDelay_bare same ticks
    | mark counter => exact ⟨rfl, castMark_bare same counter⟩
    | ward => exact ⟨rfl, same⟩
    | echo _ _ => exact ⟨rfl, same⟩
  wantsPush sameCode same := ⟨congrArg wantsPush sameCode, same⟩
  propose {glyph glyph' first second _ _} sameCode same := by
    have sameCode : glyph' = glyph := sameCode
    subst sameCode
    refine ⟨same, ?_⟩
    cases glyph' with
    | echo name times =>
        have unrolled : (unroll? name times second.remainder).map (·.bare id) =
            (unroll? name times first.remainder).map (·.bare id) := by
          rw [← unroll?_bare, ← unroll?_bare, same.remainder]
        simp only [behaviour, propose]
        cases proposed : unroll? name times first.remainder with
        | none =>
            rw [proposed, Option.map_none, Option.map_eq_none_iff] at unrolled
            rw [unrolled]
            exact .none
        | some program =>
            rw [proposed, Option.map_some, Option.map_eq_some_iff] at unrolled
            obtain ⟨program', proposed', samePrograms⟩ := unrolled
            rw [proposed']
            refine .some (same.change ?_ rfl rfl)
            let start (context : Context Glyph) (program : Program Glyph) : Context Glyph :=
              { context with program, counter := 0 }
            change start (second.bare id) (program'.bare id) = start (first.bare id) (program.bare id)
            rw [same.bare, samePrograms]
    | jump _ | delay _ | mark _ | ward => exact .none
  notify := keeps

end Glyph

end Spellcast
