import Spellcast.Proofs.CommandLine.Performance

/-!
# The command line is all or nothing

Once all spells are registered they are run to their end. If a spell cannot be had, or the configuration or its filter
cannot, then nothing runs at all.
-/

namespace Spellcast.CommandLine

variable {accepts : String → Bool} {read : String → Except Files.Fault String} {path spell : String}
  {files spells : List String} {config : Config} {programs : List (Program Glyph)}

/-- What has to be the case for spells to be cast: the configuration loads, its filter is one, and every file holds a
program with instructions. -/
structure Castable (accepts : String → Bool) (read : String → Except Files.Fault String) (path : String)
    (files : List String) (config : Config) (programs : List (Program Glyph)) : Prop where
  loads : ∃ loaded, Config.load read path = .ok loaded ∧ loaded.config = config
  accepted : accepts config.shown = true
  decodes : List.Forall₂ (Decodes ⟨Glyph.standard id, config.length⟩ read) files programs

theorem Castable.standard
    (castable : Castable accepts read path files config programs) :
    ∀ program ∈ programs, ∀ instruction ∈ program.instructions, Glyph.IsStandard id instruction := by
  intro program member
  obtain ⟨index, bound, rfl⟩ := List.getElem_of_mem member
  have inFiles : index < files.length := castable.decodes.length_eq ▸ bound
  exact (List.Forall₂.get castable.decodes inFiles bound).standard

theorem prepare_eq_ok_iff
    {empty : Stage} :
    prepare accepts read path = .ok empty ↔
      ∃ loaded, Config.load read path = .ok loaded ∧ accepts loaded.config.shown = true ∧
        empty = .ofConfig path loaded.config := by
  unfold prepare
  cases loads : Config.load read path with
  | error fault =>
      simp
  | ok loaded =>
      constructor
      · intro prepared
        change (if accepts loaded.config.shown = true then _ else _) = _ at prepared
        split at prepared
        · next accepted => exact ⟨loaded, rfl, accepted, (Except.ok.inj prepared).symm⟩
        · contradiction
      · rintro ⟨other, same, accepted, rfl⟩
        obtain rfl := Except.ok.inj same
        exact if_pos accepted

theorem exists_stage
    (castable : Castable accepts read path (spell :: spells) config programs) :
    ∃ ready, stage accepts read (path :: spell :: spells) = (ready.shown, .ok ready) ∧
      ready.Stands (programs.foldl (enrolled 1) (fresh config)) ∧ ready.caster = 1 ∧
      ∀ time, heading time ∉ ready.shown := by
  obtain ⟨⟨loaded, loads, rfl⟩, accepted, decodes⟩ := castable
  have prepared : prepare accepts read path = .ok (.ofConfig path loaded.config) :=
    prepare_eq_ok_iff.mpr ⟨loaded, loads, accepted, rfl⟩
  have begins : (Stage.ofConfig path loaded.config).Stands (fresh loaded.config) := ⟨rfl, rfl⟩
  obtain ⟨stands, caster⟩ := begins.enrollAll decodes
  have quiet := ((untouched_ofConfig path loaded.config).enrollAll read (spell :: spells)).shown
  have complete : ((Stage.ofConfig path loaded.config).enrollAll read (spell :: spells)).2 = none :=
    enrollAll_eq_none_iff.mpr ⟨programs, decodes⟩
  rcases enrolled : (Stage.ofConfig path loaded.config).enrollAll read (spell :: spells) with ⟨ready, failure⟩
  rw [enrolled] at stands caster quiet complete
  obtain rfl : failure = none := complete
  refine ⟨ready, ?_, stands, caster, quiet⟩
  delta stage
  simp only [prepared, enrolled]

theorem exists_stage_failure
    (uncastable : ¬ ∃ config programs, Castable accepts read path (spell :: spells) config programs) :
    ∃ shown failure, stage accepts read (path :: spell :: spells) = (shown, .error failure) ∧
      ∀ time, heading time ∉ shown := by
  cases prepared : prepare accepts read path with
  | error failure =>
      refine ⟨[], failure, ?_, fun _ => List.not_mem_nil⟩
      delta stage
      simp only [prepared]
  | ok empty =>
      obtain ⟨loaded, loads, accepted, rfl⟩ := prepare_eq_ok_iff.mp prepared
      have quiet := ((untouched_ofConfig path loaded.config).enrollAll read (spell :: spells)).shown
      rcases enrolled : (Stage.ofConfig path loaded.config).enrollAll read (spell :: spells) with ⟨left, failure⟩
      rw [enrolled] at quiet
      cases failure with
      | none =>
          have complete : ((Stage.ofConfig path loaded.config).enrollAll read (spell :: spells)).2 = none := by
            rw [enrolled]
          obtain ⟨programs, decodes⟩ := enrollAll_eq_none_iff.mp complete
          exact absurd ⟨_, programs, ⟨loaded, loads, rfl⟩, accepted, decodes⟩ uncastable
      | some failure =>
          refine ⟨left.shown, failure, ?_, quiet⟩
          delta stage
          simp only [prepared, enrolled]

theorem splitOnAux_of_ne
    {text separator : String}
    {first place : String.Pos.Raw}
    {parts : List String}
    (more : String.Pos.Raw.atEnd text place = false)
    (different : (String.Pos.Raw.get text place == String.Pos.Raw.get separator 0) = false) :
    text.splitOnAux separator first place 0 parts =
      text.splitOnAux separator first (String.Pos.Raw.next text (place.unoffsetBy 0)) 0 parts := by
  rw [String.splitOnAux]
  simp only [more, different, Bool.false_eq_true, if_false]

theorem names_files : ∀ path ∈ ["a.toml", "a.json"], Path.names path = [path] := by
  simp only [List.forall_mem_cons]
  refine ⟨?_, ?_, by simp⟩
  all_goals
    rw [Path.names, String.splitOn, if_neg (by decide)]
    -- no slash begins at any of the six characters
    iterate 6 rw [splitOnAux_of_ne (by decide +kernel) (by decide +kernel)]
    rw [String.splitOnAux, if_pos (by decide +kernel)]
    decide +kernel

/-- The spells are cast, and the program exits with zero, exactly if the configuration loads, its filter is one and
every file holds a program with instructions. Then the results have one line for each spell, which says of the spell
what its own run comes to, and the caster rises with 3/4 if some spell has run a jump and not at all if none has.
Otherwise the program exits with one, shows no results, and leaves a stage on which nothing has run. -/
theorem commandLineIsAllOrNothing
    (accepts : String → Bool)
    (read : String → Except Files.Fault String)
    (elapsed path spell : String)
    (spells : List String) :
    let files := spell :: spells
    let report := runWith accepts read elapsed (path :: files)
    (report.code = 0 ↔ ∃ config programs, Castable accepts read path files config programs) ∧
    (∀ config programs, Castable accepts read path files config programs →
      let own (program : Program Glyph) := reference config.forks program.instructions
      let budget := max config.steps 1
      let jumped := programs.any fun program => (own program).executed.any (·.isJump)
      ∃ shown ready results final,
        stage accepts read (path :: files) = (shown, .ok ready) ∧
        Reaches (solely 1) Glyph.behaviour (fresh config) final ∧
        ready.perform = ⟨final.completed, final.realm, 1⟩ ∧
        report = ⟨shown ++ (["", heading elapsed, String.ofList (List.replicate 35 '─')] ++ results ++
          [ "", "🧙 Apprentice after casting:", "   position: (0.00, 0.00, 0.00)",
            "   velocity: (0.00, " ++ (if jumped then "0.75" else "0.00") ++ ", 0.00)" ]), [], 0⟩ ∧
        (∀ time, heading time ∉ shown) ∧
        results.length = files.length ∧
        results.Perm ((programs.zipIdx 1).map fun (program, number) => spellLine number budget (own program)) ∧
        (final.completed.map (·.id)).Perm (List.range' 1 files.length) ∧
        (∀ earlier program later, programs = earlier ++ program :: later →
          final.executedBy (earlier.length + 1) = (own program).executed ∧
          (∃ outcome ∈ final.completed, outcome.id = earlier.length + 1 ∧ outcome.Gives budget (own program)) ∧
          ∀ file, Decodes ⟨Glyph.standard id, config.length⟩ read file program →
            ∃ alone, ((Stage.ofConfig path config).enrollAll read [file]).1.perform.outcomes = [alone] ∧
              alone.Gives budget (own program)) ∧
        ∃ caster, final.realm.world.entity? 1 = some caster ∧
          some caster.velocity.y = Binary64.ofRatio? false (if jumped then 3 else 0) 4) ∧
    ((¬ ∃ config programs, Castable accepts read path files config programs) →
      report.code = 1 ∧ (∀ time, heading time ∉ report.output) ∧
      (∃ failure, (stage accepts read (path :: files)).2 = .error failure) ∧
      ∀ empty, prepare accepts read path = .ok empty →
        (empty.enrollAll read files).1.Untouched (World.empty.spawn casterName).2) := by
  intro files report
  have failed (uncastable : ¬ ∃ config programs, Castable accepts read path files config programs) :
      report.code = 1 ∧ (∀ time, heading time ∉ report.output) ∧
        ∃ failure, (stage accepts read (path :: files)).2 = .error failure := by
    obtain ⟨shown, failure, staged, quiet⟩ := exists_stage_failure uncastable
    have whole : report = ⟨shown, failure.lines, 1⟩ := by
      simp only [report, files, runWith, staged]
    rw [whole, staged]
    exact ⟨rfl, quiet, failure, rfl⟩
  refine ⟨⟨?_, ?_⟩, ?_, ?_⟩
  · intro zero
    by_contra uncastable
    rw [(failed uncastable).1] at zero
    exact absurd zero Nat.one_ne_zero
  · rintro ⟨config, programs, castable⟩
    obtain ⟨ready, staged, -⟩ := exists_stage castable
    simp only [report, files, runWith, staged]
  · intro config programs castable own budget jumped
    obtain ⟨ready, staged, stands, caster, quiet⟩ := exists_stage castable
    obtain ⟨final, played, performed⟩ := exists_playedOut castable.standard stands
    have ids := played.ids_perm
    have count : programs.length = files.length := castable.decodes.length_eq.symm
    rw [count] at ids
    have rises : final.realm.world.entity? 1 = some (apprentice jumped) := by
      rw [played.attended.caster, played.any_isJump]
    rw [caster] at performed
    refine ⟨ready.shown, ready, final.completed.map outcomeLine, final, staged, played.reached, performed, ?_, quiet,
      ?_, played.lines_perm, ids, ?_, apprentice jumped, rises, ?_⟩
    · simp only [report, files, runWith, staged, performed, Performance.lines, rises, casterLines_apprentice]
      rfl
    · rw [List.length_map, ← List.length_map (·.id), ids.length_eq, List.length_range']
    · rintro earlier program later rfl
      obtain ⟨executed, reported⟩ := played.exists_outcome
      exact ⟨executed, reported, fun file decodes => exists_alone path decodes⟩
    · cases jumped with
      | false => decide +kernel
      | true => decide +kernel
  · intro uncastable
    obtain ⟨code, quiet, failure⟩ := failed uncastable
    refine ⟨code, quiet, failure, ?_⟩
    intro empty prepared
    obtain ⟨loaded, -, -, rfl⟩ := prepare_eq_ok_iff.mp prepared
    exact (untouched_ofConfig path loaded.config).enrollAll read files

/-- A hop is cast alone; with a file behind it that does not exist it is not cast at all. -/
theorem commandLineIsAllOrNothing_hop :
    let jump : Instruction Glyph := Glyph.instruction id 0 Glyph.jumpId (.jump Glyph.defaultStrength)
    let program : Program Glyph := ⟨[jump], .default⟩
    let read : String → Except Files.Fault String := fun path =>
      if path = "a.toml" then .ok ""
      else if path = "a.json" then .ok (Codec.encodeJson program)
      else .error .notFound
    Castable (fun _ => true) read "a.toml" ["a.json"] .empty [program] ∧
      (∃ shown, runWith (fun _ => true) read "1s" ["a.toml", "a.json"] =
        ⟨shown ++ [ "", "📊 Results (1s)", String.ofList (List.replicate 35 '─'),
          "  cast-1 completed: 1 step(s), 0 fork(s), 1 tick(s)", "", "🧙 Apprentice after casting:",
          "   position: (0.00, 0.00, 0.00)", "   velocity: (0.00, 0.75, 0.00)" ], [], 0⟩) ∧
      (runWith (fun _ => true) read "1s" ["a.toml", "a.json", "b.json"]).code = 1 := by
  intro jump program read
  have config : read "a.toml" = .ok "" := if_pos rfl
  have spell : read "a.json" = .ok (Codec.encodeJson program) := (if_neg (by decide)).trans (if_pos rfl)
  have missing : read "b.json" = .error .notFound := (if_neg (by decide)).trans (if_neg (by decide))
  have toml : Path.extension? "a.toml" = some "toml" := by
    rw [Path.extension?, Path.fileName?, names_files "a.toml" (by simp)]
    decide +kernel
  have json : Path.extension? "a.json" = some "json" := by
    rw [Path.extension?, Path.fileName?, names_files "a.json" (by simp)]
    decide +kernel
  have loads : Config.load read "a.toml" = .ok ⟨"a.toml", .toml, .empty⟩ := by
    simp only [Config.load, Config.dialectOf, toml, config]
    rfl
  have knows : (⟨Glyph.standard id, Config.empty.length⟩ : Codec Glyph).Knows program := by
    refine ⟨?_, by decide⟩
    intro instruction member
    obtain rfl := List.mem_singleton.mp member
    rfl
  have wellFormed : (Json.object program.visual.style).WellFormed := ⟨List.Pairwise.nil, trivial⟩
  have rereads : (Json.object program.visual.style).Everywhere Json.Rereads :=
    (Codec.rereadFields_eq_self_iff wellFormed).mp rfl
  have decoded : (⟨Glyph.standard id, Config.empty.length⟩ : Codec Glyph).decodeFile read "a.json" = .ok program := by
    rw [Codec.decodeFile, spell]
    simp only [json, Option.map_some]
    rw [if_pos (by decide +kernel)]
    exact (knows.decodeJson_encodeJson_iff wellFormed).mpr ⟨fun _ member => absurd member List.not_mem_nil, rereads⟩
  have castable : Castable (fun _ => true) read "a.toml" ["a.json"] .empty [program] :=
    ⟨⟨_, loads, rfl⟩, rfl, .cons ⟨decoded, rfl⟩ .nil⟩
  refine ⟨castable, ?_, ?_⟩
  · obtain ⟨shown, ready, results, final, -, -, -, output, -, -, lines, -⟩ :=
      (commandLineIsAllOrNothing _ read "1s" "a.toml" "a.json" []).2.1 _ _ castable
    have line : results = ["  cast-1 completed: 1 step(s), 0 fork(s), 1 tick(s)"] := by
      apply List.perm_singleton.mp
      convert lines using 1
      decide +kernel
    rw [line] at output
    exact ⟨shown, output⟩
  · refine ((commandLineIsAllOrNothing _ read "1s" "a.toml" "a.json" ["b.json"]).2.2 ?_).1
    rintro ⟨config, programs, -, -, decodes⟩
    cases decodes with
    | cons first others =>
        cases others with
        | cons second _ =>
          have answer := second.1
          rw [Codec.decodeFile, missing] at answer
          contradiction

end Spellcast.CommandLine
