import Spellcast.Proofs.Isolation.Cells
import Spellcast.Proofs.Standard

/-!
# The same context in another realm

A context can be run in another realm, where its attachments lie in other cells, its caster is somebody else and its
parent has another number. `Context.Mirrors` relates the two by a renaming of the cells. Standard instructions keep the
relation, so both run the same instructions, and `Context.anonymous` and `Context.contents` show no difference between
them.
-/

namespace Spellcast

variable {κ : Type} {behaviour : Behaviour κ} {embed : Glyph → κ}

namespace AttachmentStore

variable {id : Identifier} {cell : CellId} {entries : List (Identifier × CellId)}

theorem lookup_rename
    (rename : CellId → CellId)
    (id : Identifier)
    (entries : List (Identifier × CellId)) :
    lookup id (entries.map fun entry => (entry.1, rename entry.2)) = (lookup id entries).map rename := by
  induction entries with
  | nil =>
      rfl
  | cons head rest inductionHypothesis =>
      by_cases found : head.1 = id
      · simp [lookup, found]
      · simp [lookup, found, inductionHypothesis]

/-- Two stores have the same identifiers in the same order, with cells of the same values, and two entries share a cell
in both or in none. -/
structure Mirrors (rename : CellId → CellId) (first : AttachmentStore) (cells : Cells) (second : AttachmentStore)
    (cells' : Cells) : Prop where
  entries : second.entries = first.entries.map fun entry => (entry.1, rename entry.2)
  injective : ∀ cell ∈ first.entries.map (·.2), ∀ other ∈ first.entries.map (·.2),
    rename cell = rename other → cell = other
  values : ∀ cell ∈ first.entries.map (·.2), ∃ value, cells.read? cell = some value ∧
    cells'.read? (rename cell) = some value

namespace Mirrors

variable {rename : CellId → CellId} {first second : AttachmentStore} {cells cells' : Cells} {value : CellValue}

theorem cell?
    (mirrors : Mirrors rename first cells second cells')
    (id : Identifier) :
    second.cell? id = (first.cell? id).map rename := by
  rw [AttachmentStore.cell?, mirrors.entries, lookup_rename, AttachmentStore.cell?]

theorem has
    (mirrors : Mirrors rename first cells second cells')
    {cell : CellId}
    (member : cell ∈ second.entries.map (·.2)) :
    cells'.Has cell := by
  rw [mirrors.entries, List.map_map] at member
  obtain ⟨entry, listed, rfl⟩ := List.mem_map.mp member
  obtain ⟨value, -, found⟩ := mirrors.values entry.2 (List.mem_map_of_mem listed)
  exact Cells.has_iff.mpr ⟨value, found⟩

/-- A new cell can be put under the same new identifier on both sides. -/
theorem insert
    (mirrors : Mirrors rename first cells second cells')
    (absent : first.cell? id = none)
    (value : CellValue) :
    let new := (cells.allocate value).1
    let new' := (cells'.allocate value).1
    Mirrors (fun cell => if cell = new then new' else rename cell) (first.insertShared id new).2
      (cells.allocate value).2 (second.insertShared id new').2 (cells'.allocate value).2 := by
  intro new new'
  have absent' : second.cell? id = none := by
    rw [mirrors.cell?, absent]
    rfl
  have grown := insertShared_of_absent absent new
  have grown' := insertShared_of_absent absent' new'
  have old : ∀ cell ∈ first.entries.map (·.2), cells.Has cell ∧ cell ≠ new ∧ cells'.Has (rename cell) ∧
      rename cell ≠ new' := by
    intro cell member
    obtain ⟨value, found, found'⟩ := mirrors.values cell member
    have has : cells.Has cell := Cells.has_iff.mpr ⟨value, found⟩
    have has' : cells'.Has (rename cell) := Cells.has_iff.mpr ⟨value, found'⟩
    exact ⟨has, fun same => Cells.not_has_allocated (same ▸ has), has',
      fun same => Cells.not_has_allocated (same ▸ has')⟩
  constructor
  · rw [grown, grown', List.map_append, mirrors.entries]
    congr 1
    · apply List.map_congr_left
      intro entry member
      have different := (old entry.2 (List.mem_map_of_mem member)).2.1
      simp [different]
    · simp
  · rw [grown]
    intro cell member other otherMember same
    simp only [List.map_append, List.map_cons, List.map_nil, List.mem_append, List.mem_singleton] at member otherMember
    rcases member with member | rfl
    · rcases otherMember with otherMember | rfl
      · simp only [(old cell member).2.1, (old other otherMember).2.1, if_false] at same
        exact mirrors.injective cell member other otherMember same
      · simp only [(old cell member).2.1, if_false, if_true] at same
        exact absurd same (old cell member).2.2.2
    · rcases otherMember with otherMember | rfl
      · simp only [(old other otherMember).2.1, if_false, if_true] at same
        exact absurd same.symm (old other otherMember).2.2.2
      · rfl
  · rw [grown]
    intro cell member
    simp only [List.map_append, List.map_cons, List.map_nil, List.mem_append, List.mem_singleton] at member
    rcases member with member | rfl
    · obtain ⟨value, found, found'⟩ := mirrors.values cell member
      obtain ⟨has, different, has', -⟩ := old cell member
      simp only [different, if_false]
      exact ⟨value, (Cells.read?_allocate_of_has has).trans found, (Cells.read?_allocate_of_has has').trans found'⟩
    · simp only [if_true]
      exact ⟨value, Cells.read?_allocate_self, Cells.read?_allocate_self⟩

/-- Counting in the same cell on both sides keeps the values the same. -/
theorem add
    (mirrors : Mirrors rename first cells second cells')
    (member : cell ∈ first.entries.map (·.2))
    (amount : Nat) :
    Mirrors rename first (cells.add cell amount) second (cells'.add (rename cell) amount) where
  entries := mirrors.entries
  injective := mirrors.injective
  values other otherMember := by
    obtain ⟨value, found, found'⟩ := mirrors.values cell member
    cases value with
    | tally count =>
        by_cases same : other = cell
        · subst same
          exact ⟨_, Cells.read?_add_self found, Cells.read?_add_self found'⟩
        · have different : rename other ≠ rename cell :=
            fun sameName => same (mirrors.injective other otherMember cell member sameName)
          rw [Cells.read?_add_of_ne same, Cells.read?_add_of_ne different]
          exact mirrors.values other otherMember
    | natural _ | text _ | flag _ =>
        rw [Cells.add_of_not_tally found (by simp), Cells.add_of_not_tally found' (by simp)]
        exact mirrors.values other otherMember

/-- Only the cells in the stores matter. -/
theorem agree
    (mirrors : Mirrors rename first cells second cells')
    {after after' : Cells}
    (same : ∀ cell ∈ first.entries.map (·.2), after.read? cell = cells.read? cell)
    (same' : ∀ cell ∈ second.entries.map (·.2), after'.read? cell = cells'.read? cell) :
    Mirrors rename first after second after' where
  entries := mirrors.entries
  injective := mirrors.injective
  values cell member := by
    obtain ⟨value, found, found'⟩ := mirrors.values cell member
    have member' : rename cell ∈ second.entries.map (·.2) := by
      rw [mirrors.entries, List.map_map]
      obtain ⟨entry, listed, rfl⟩ := List.mem_map.mp member
      exact List.mem_map_of_mem listed
    exact ⟨value, (same cell member).trans found, (same' _ member').trans found'⟩

end Mirrors

end AttachmentStore

/-- Two contexts, each in its realm, are the same but for the caster, the number of the parent and the cells. -/
structure Context.Mirrors (rename : CellId → CellId) (first : Context κ) (cells : Cells) (second : Context κ)
    (cells' : Cells) : Prop where
  rest : second = { first with caster := second.caster, attachments := second.attachments, parent := second.parent }
  attachments : first.attachments.Mirrors rename cells second.attachments cells'

namespace Context

/-- The context without its caster and without all that is known by a number. -/
def anonymous (context : Context κ) : Context κ :=
  { context with caster := none, attachments := .empty, parent := none }

/-- The attachments of a context: each with its value and the identifiers under which the same cell is held. -/
def contents (context : Context κ) (cells : Cells) : List (Identifier × Option CellValue × List Identifier) :=
  let entries := context.attachments.entries
  entries.map fun entry => (entry.1, cells.read? entry.2, (entries.filter (·.2 == entry.2)).map (·.1))

variable {rename : CellId → CellId} {first second : Context κ} {cells cells' : Cells} {realm realm' : Realm}

/-- Stores that mirror each other hold the same values. -/
theorem contents_of_mirrors
    (attachments : first.attachments.Mirrors rename cells second.attachments cells') :
    second.contents cells' = first.contents cells := by
  simp only [Context.contents, attachments.entries, List.map_map]
  apply List.map_congr_left
  intro entry member
  have own : entry.2 ∈ first.attachments.entries.map (·.2) := List.mem_map_of_mem member
  obtain ⟨value, found, found'⟩ := attachments.values entry.2 own
  have shared : (first.attachments.entries.filter fun other => rename other.2 == rename entry.2) =
      first.attachments.entries.filter (·.2 == entry.2) := by
    apply List.filter_congr
    intro other otherMember
    rw [Bool.eq_iff_iff, beq_iff_eq, beq_iff_eq]
    exact ⟨attachments.injective other.2 (List.mem_map_of_mem otherMember) entry.2 own, congrArg rename⟩
  simp only [Function.comp_apply, found, found', List.filter_map, List.map_map, Prod.mk.injEq, true_and]
  exact congrArg (List.map _) shared

namespace Mirrors

theorem anonymous
    (mirrors : first.Mirrors rename cells second cells') :
    second.anonymous = first.anonymous := by
  rw [mirrors.rest]
  rfl

theorem contents
    (mirrors : first.Mirrors rename cells second cells') :
    second.contents cells' = first.contents cells :=
  contents_of_mirrors mirrors.attachments

/-- Changes that have nothing to do with casters, parents and attachments. -/
theorem map
    (mirrors : first.Mirrors rename cells second cells')
    (change : Context κ → Context κ)
    (apart : ∀ (context : Context κ) caster attachments parent,
      change { context with caster, attachments, parent } = { change context with caster, attachments, parent }) :
    (change first).Mirrors rename cells (change second) cells' := by
  have kept (context : Context κ) : (change context).attachments = context.attachments := by
    have own := congrArg Context.attachments (apart context context.caster context.attachments context.parent)
    exact own
  constructor
  · rw [mirrors.rest, apart]
  · rw [kept, kept]
    exact mirrors.attachments

theorem reparent
    (mirrors : first.Mirrors rename cells second cells')
    (parent parent' : Option ContextId) :
    Context.Mirrors rename { first with parent } cells { second with parent := parent' } cells' :=
  ⟨by rw [mirrors.rest], mirrors.attachments⟩

theorem reattach
    (mirrors : first.Mirrors rename cells second cells')
    {renamed : CellId → CellId}
    {attachments attachments' : AttachmentStore}
    {changed changed' : Cells}
    (still : attachments.Mirrors renamed changed attachments' changed') :
    Context.Mirrors renamed { first with attachments } changed { second with attachments := attachments' } changed' :=
  ⟨by rw [mirrors.rest], still⟩

end Mirrors

end Context

/-- A mark changes no cell but the one that it counts in. -/
theorem Glyph.castMark_handles
    {context : Context κ}
    {realm : Realm}
    (has : ∀ cell ∈ context.cells, realm.cells.Has cell)
    (counter : Identifier) :
    let answer := castMark counter context realm
    Cells.Handles context.cells realm.cells answer.1.cells answer.2.cells := by
  cases found : context.attachments.cell? counter with
  | none =>
      have allocated := Cells.Handles.allocate has (.tally 0)
      have counted := allocated.trans
        (.add (fun cell member => (allocated.held cell member).1) (List.mem_append_right _ List.mem_cons_self) 1)
      simp only [castMark, AttachmentStore.getOrInsert_of_absent found, Context.cells,
        AttachmentStore.insertShared_of_absent found, List.map_append]
      exact counted
  | some cell =>
      have member : cell ∈ context.cells := AttachmentStore.mem_of_lookup found
      obtain ⟨value, read⟩ := Cells.has_iff.mp (has cell member)
      simp only [castMark, AttachmentStore.getOrInsert_of_present found read]
      by_cases tally : value.kind = CellValue.kind (.tally 0)
      · simp only [if_pos tally]
        exact .add has member 1
      · simp only [if_neg tally]
        exact .refl has

theorem Glyph.behaviour_discreet : Glyph.behaviour.Discreet where
  cast glyph context realm has := by
    cases glyph with
    | jump _ => exact .refl has
    | delay ticks =>
        simp only [behaviour, Glyph.cast, castDelay]
        split
        · exact .refl has
        · exact .refl has
    | mark counter => exact castMark_handles has counter
    | ward => exact .refl has
    | echo _ _ => exact .refl has
  notify glyph context realm has := by
    cases glyph with
    | ward =>
        simp only [behaviour, Glyph.notify, absorb]
        split
        · exact .refl has
        · exact .refl has
        · exact .refl has
    | jump _ | delay _ | mark _ | echo _ _ => exact .refl has
  wantsPush _ _ _ has := .refl has
  propose glyph context realm has := by
    refine ⟨.refl has, ?_⟩
    intro child proposed
    cases glyph with
    | echo id times =>
        obtain ⟨program, -, rfl⟩ := Option.map_eq_some_iff.mp (Option.mem_def.mp proposed)
        exact .refl has
    | jump _ | delay _ | mark _ | ward => cases proposed

section

variable {rename : CellId → CellId} {first second : Context κ} {realm realm' : Realm}

theorem Glyph.castMark_mirrors
    (mirrors : first.Mirrors rename realm.cells second realm'.cells)
    (counter : Identifier) :
    ∃ renamed, (castMark counter first realm).1.Mirrors renamed (castMark counter first realm).2.cells
      (castMark counter second realm').1 (castMark counter second realm').2.cells := by
  have tagged := mirrors.map
    (fun context => { context with tag := Fields.insert lastMarkKey (.nat (context.counter - 1)) context.tag })
    fun _ _ _ _ => rfl
  have sameCell := mirrors.attachments.cell? counter
  cases found : first.attachments.cell? counter with
  | none =>
      rw [found] at sameCell
      have inserted := mirrors.attachments.insert found (.tally 0)
      have counted := inserted.add (AttachmentStore.mem_replace _ _ _) 1
      rw [if_pos rfl] at counted
      simp only [castMark, AttachmentStore.getOrInsert_of_absent found, AttachmentStore.getOrInsert_of_absent sameCell]
      exact ⟨_, tagged.reattach counted⟩
  | some cell =>
      rw [found] at sameCell
      have member := AttachmentStore.mem_of_lookup found
      obtain ⟨value, read, read'⟩ := mirrors.attachments.values cell member
      simp only [castMark, AttachmentStore.getOrInsert_of_present found read,
        AttachmentStore.getOrInsert_of_present sameCell read']
      by_cases tally : value.kind = CellValue.kind (.tally 0)
      · simp only [if_pos tally]
        exact ⟨rename, tagged.reattach (mirrors.attachments.add member 1)⟩
      · simp only [if_neg tally]
        exact ⟨rename, tagged.reattach mirrors.attachments⟩

theorem Glyph.cast_mirrors
    (mirrors : first.Mirrors rename realm.cells second realm'.cells)
    (glyph : Glyph) :
    let answer := glyph.cast first realm
    let answer' := glyph.cast second realm'
    answer'.1 = answer.1 ∧ answer.2.1.program = first.program ∧
      ∃ renamed, answer.2.1.Mirrors renamed answer.2.2.cells answer'.2.1 answer'.2.2.cells := by
  cases glyph with
  | jump strength => exact ⟨rfl, rfl, rename, mirrors⟩
  | delay ticks =>
      have program : second.program = first.program := by rw [mirrors.rest]
      have counter : second.counter = first.counter := by rw [mirrors.rest]
      by_cases atEnd : first.program.length ≤ first.counter
      · have atEnd' : second.program.length ≤ second.counter := by
          rw [program, counter]
          exact atEnd
        rw [cast_delay_of_end atEnd, cast_delay_of_end atEnd']
        exact ⟨rfl, rfl, rename, mirrors⟩
      · have rest := Nat.not_le.mp atEnd
        have rest' : second.counter < second.program.length := by
          rw [program, counter]
          exact rest
        rw [cast_delay_of_rest rest, cast_delay_of_rest rest']
        exact ⟨rfl, rfl, rename, mirrors.map (Context.delay · ticks) fun _ _ _ _ => rfl⟩
  | mark counter => exact ⟨rfl, rfl, castMark_mirrors mirrors counter⟩
  | ward => exact ⟨rfl, rfl, rename, mirrors⟩
  | echo id times => exact ⟨rfl, rfl, rename, mirrors⟩

theorem Glyph.notify_ward_of_silent
    {context : Context κ}
    (silent : context.cancelReason = none ∨ context.cancelReason = some .newContext)
    (realm : Realm) :
    ward.notify context realm = (true, context, realm) := by
  rcases silent with unstopped | moved
  · simp [notify, absorb, unstopped]
  · simp [notify, absorb, moved]

theorem Glyph.notify_ward_of_reason
    {context : Context κ}
    {reason : CancelReason}
    (held : context.cancelReason = some reason)
    (notMoved : reason ≠ .newContext)
    (realm : Realm) :
    ward.notify context realm =
      (false, { context with tag := Fields.insert wardedKey (.text reason.text) context.tag }, realm) := by
  cases reason with
  | newContext => exact absurd rfl notMoved
  | terminated => simp [notify, absorb, held]
  | custom id => simp [notify, absorb, held]

/-- A glyph that is told of a cancellation changes the tag of the context at most. -/
theorem Glyph.notify_mirrors
    (mirrors : first.Mirrors rename realm.cells second realm'.cells)
    (glyph : Glyph) :
    let answer := glyph.notify first realm
    let answer' := glyph.notify second realm'
    answer'.1 = answer.1 ∧ answer.2.1.program = first.program ∧
      answer.2.1.Mirrors rename realm.cells answer'.2.1 realm'.cells ∧ answer.2.2 = realm ∧ answer'.2.2 = realm' := by
  cases glyph with
  | ward =>
      have reason : second.cancelReason = first.cancelReason := by rw [mirrors.rest]
      by_cases silent : first.cancelReason = none ∨ first.cancelReason = some .newContext
      · rw [notify_ward_of_silent silent, notify_ward_of_silent (reason ▸ silent)]
        exact ⟨rfl, rfl, mirrors, rfl, rfl⟩
      · obtain ⟨notNone, notMoved⟩ := not_or.mp silent
        obtain ⟨held, isHeld⟩ := Option.ne_none_iff_exists'.mp notNone
        have other : held ≠ .newContext := fun moved => notMoved (moved ▸ isHeld)
        rw [notify_ward_of_reason isHeld other, notify_ward_of_reason (reason.trans isHeld) other]
        exact ⟨rfl, rfl, mirrors.map
          (fun context => { context with tag := Fields.insert wardedKey (.text held.text) context.tag })
          fun _ _ _ _ => rfl, rfl, rfl⟩
  | jump strength => exact ⟨rfl, rfl, mirrors, rfl, rfl⟩
  | delay ticks => exact ⟨rfl, rfl, mirrors, rfl, rfl⟩
  | mark counter => exact ⟨rfl, rfl, mirrors, rfl, rfl⟩
  | echo id times => exact ⟨rfl, rfl, mirrors, rfl, rfl⟩

end

/-- Two contexts, each in its realm, run the same standard program from the same state. -/
structure Mirrored (embed : Glyph → κ) (first : Context κ) (realm : Realm) (second : Context κ) (realm' : Realm) :
    Prop where
  mirrors : ∃ rename, first.Mirrors rename realm.cells second realm'.cells
  standard : ∀ instruction ∈ first.program.instructions, Glyph.IsStandard embed instruction

namespace Mirrored

variable {first second : Context κ} {realm realm' : Realm}

theorem map
    (mirrored : Mirrored embed first realm second realm')
    (change : Context κ → Context κ)
    (apart : ∀ (context : Context κ) caster attachments parent,
      change { context with caster, attachments, parent } = { change context with caster, attachments, parent })
    (program : (change first).program = first.program) :
    Mirrored embed (change first) realm (change second) realm' := by
  obtain ⟨rename, mirrors⟩ := mirrored.mirrors
  refine ⟨⟨rename, mirrors.map change apart⟩, ?_⟩
  rw [program]
  exact mirrored.standard

theorem agree
    (mirrored : Mirrored embed first realm second realm')
    {after after' : Realm}
    (same : ∀ cell ∈ first.cells, after.cells.read? cell = realm.cells.read? cell)
    (same' : ∀ cell ∈ second.cells, after'.cells.read? cell = realm'.cells.read? cell) :
    Mirrored embed first after second after' := by
  obtain ⟨⟨rename, rest, attachments⟩, standard⟩ := mirrored
  exact ⟨⟨rename, rest, attachments.agree same same'⟩, standard⟩

theorem remainder
    (mirrored : Mirrored embed first realm second realm') :
    second.remainder = first.remainder := by
  obtain ⟨rename, mirrors⟩ := mirrored.mirrors
  rw [mirrors.rest]
  rfl

/-- A standard context is canceled with nothing done to the cells. -/
theorem cancel
    (carries : behaviour.Carries embed)
    (mirrored : Mirrored embed first realm second realm')
    (reason : CancelReason) :
    let canceled := first.cancel behaviour reason realm
    let canceled' := second.cancel behaviour reason realm'
    Mirrored embed canceled.1 canceled.2 canceled'.1 canceled'.2 ∧
      canceled.2.cells = realm.cells ∧ canceled'.2.cells = realm'.cells := by
  let related (told : Context κ) (noted : Realm) (told' : Context κ) (noted' : Realm) : Prop :=
    Mirrored embed told noted told' noted' ∧ noted.cells = realm.cells ∧ noted'.cells = realm'.cells
  have kept : KeptByObservers behaviour related first.remainder.instructions := by
    intro instruction member observer observes told told' noted noted' both
    obtain ⟨⟨⟨rename, mirrors⟩, standard⟩, same, same'⟩ := both
    obtain ⟨serial, glyph, -, form⟩ := (mirrored.standard instruction (List.mem_of_mem_drop member)).form
    have listens : observer = embed glyph := by
      rw [form] at observes
      cases glyph with
      | ward => exact (Option.some.inj observes).symm
      | jump _ | delay _ | mark _ | echo _ _ => cases observes
    obtain ⟨answer, program, stillMirrors, realmSame, realmSame'⟩ := Glyph.notify_mirrors mirrors glyph
    rw [listens, carries.notify, carries.notify]
    refine ⟨answer, ⟨⟨rename, ?_⟩, ?_⟩, ?_, ?_⟩
    · rw [realmSame, realmSame']
      exact stillMirrors
    · rw [program]
      exact standard
    · rw [realmSame]
      exact same
    · rw [realmSame']
      exact same'
  have marked : Mirrored embed { first with canceled := true, cancelReason := some reason } realm
      { second with canceled := true, cancelReason := some reason } realm' :=
    mirrored.map (fun context => { context with canceled := true, cancelReason := some reason })
      (fun _ _ _ _ => rfl) rfl
  obtain ⟨noted, noted', canceled, same, same'⟩ :=
    Context.cancel_related reason mirrored.remainder kept ⟨marked, rfl, rfl⟩
  obtain ⟨⟨⟨rename, mirrors⟩, standard⟩, cells, cells'⟩ := canceled
  refine ⟨⟨⟨rename, ?_⟩, standard⟩, same.cells.trans cells, same'.cells.trans cells'⟩
  rw [same.cells, same'.cells]
  exact mirrors

theorem makeChild
    (carries : behaviour.Carries embed)
    (mirrored : Mirrored embed first realm second realm')
    (self self' : ContextId) :
    let made := first.makeChild behaviour self realm
    let made' := second.makeChild behaviour self' realm'
    Mirrored embed made.1.context made.2 made'.1.context made'.2 ∧
      made.2.cells = realm.cells ∧ made'.2.cells = realm'.cells := by
  obtain ⟨rename, mirrors⟩ := mirrored.mirrors
  have program : second.program = first.program := by rw [mirrors.rest]
  have standard' : ∀ instruction ∈ second.program.instructions, Glyph.IsStandard embed instruction := by
    rw [program]
    exact mirrored.standard
  obtain ⟨made, same⟩ := Context.makeChild_of_standard carries mirrored.standard self realm
  obtain ⟨made', same'⟩ := Context.makeChild_of_standard carries standard' self' realm'
  let child (context : Context κ) : Context κ :=
    { context with program := { context.program with instructions := unrolled context.ahead }, counter := 0 }
  have children := mirrors.map child fun _ _ _ _ => rfl
  refine ⟨⟨⟨rename, ?_⟩, ?_⟩, same.cells, same'.cells⟩
  · rw [made, made', same.cells, same'.cells]
    exact children.reparent (some self) (some self')
  · rw [made]
    intro instruction member
    exact mirrored.standard instruction (List.mem_of_mem_drop (mem_of_mem_unrolled member))

end Mirrored

/-- Contexts that mirror each other run alike. -/
theorem Behaviour.Carries.simulates
    (carries : behaviour.Carries embed) :
    Simulates behaviour id (fun _ _ => True) (Mirrored embed) where
  logged mirrored same same' := by
    obtain ⟨⟨rename, mirrors⟩, standard⟩ := mirrored
    refine ⟨⟨rename, ?_⟩, standard⟩
    rw [same.cells, same'.cells]
    exact mirrors
  place mirrored := by
    obtain ⟨⟨rename, mirrors⟩, -⟩ := mirrored
    rw [mirrors.rest]
    exact ⟨rfl, rfl, rfl, rfl⟩
  cast {_ _ _ _ instruction instruction'} mirrored found _ same := by
    have same : instruction' = instruction := same
    subst same
    obtain ⟨rename, mirrors⟩ := mirrored.mirrors
    have member := List.mem_of_getElem? found
    obtain ⟨glyph, code⟩ := (mirrored.standard _ member).exists_code
    obtain ⟨answer, program, stillMirrors⟩ :=
      Glyph.cast_mirrors (mirrors.map Context.stepped fun _ _ _ _ => rfl) glyph
    simp only [code, carries.cast]
    refine ⟨answer, stillMirrors, ?_⟩
    rw [program]
    exact mirrored.standard
  roused mirrored := by
    obtain ⟨rename, mirrors⟩ := mirrored.mirrors
    refine ⟨?_, mirrored.map (fun context => context.roused.1) (fun _ _ _ _ => rfl) rfl⟩
    rw [mirrors.rest]
    rfl
  stopped mirrored := mirrored.map Context.stopped (fun _ _ _ _ => rfl) rfl
  child mirrored _ := by
    obtain ⟨children, cells, cells'⟩ := mirrored.makeChild carries _ _
    obtain ⟨⟨rename, mirrors⟩, standard⟩ := mirrored
    refine ⟨⟨⟨rename, ?_⟩, standard⟩, children⟩
    rw [cells, cells']
    exact mirrors
  left mirrored childMirrored := by
    obtain ⟨-, cells, cells'⟩ := mirrored.cancel carries .newContext
    obtain ⟨⟨rename, mirrors⟩, standard⟩ := childMirrored
    refine ⟨⟨rename, ?_⟩, standard⟩
    rw [cells, cells']
    exact mirrors
  next _ := trivial

end Spellcast
