import PlantGrowth.Planting.Basic
import PlantGrowth.Proofs.Species.Census
import PlantGrowth.Proofs.Turtle.Rotation

/-!
# What a seed decides

Where a grammar leaves nothing to a draw, two sources that refuse nothing grow plants that differ in
rotations only. Of the built-in species this leaves the rotations of the blooms of a flower, and
nothing of a fern (`seed_decides_rotations`).
-/

set_option autoImplicit false

namespace PlantGrowth

/-- No draw of a key is refused. -/
theorem Source.grants_keyed {α : Type} [Scalar α] (key : String) :
    (Source.keyed key : Source α).Grants := fun _ => ⟨_, rfl⟩

namespace GrammarPreset

/-- A colour for the blooms leaves the grammar of a preset and its angle as they are. -/
theorem colored_grammar {α : Type} (preset : GrammarPreset α) (bloomColor : Option String) :
    (preset.colored bloomColor).initial = preset.initial ∧
      (preset.colored bloomColor).rules = preset.rules ∧
      (preset.colored bloomColor).angle = preset.angle := by
  unfold colored
  split <;> exact ⟨rfl, rfl, rfl⟩

variable {α : Type} [Scalar α]

/-- The plant of a stage is the one of its generation. -/
theorem grow_eq_growGenerations (preset : GrammarPreset α) (stage : Int) :
    preset.grow stage =
      preset.growGenerations preset.randomness (preset.generation stage).toNat := rfl

/-- Without a choice a plant is the interpretation of a word that takes no draw. -/
theorem grow_of_noChoice {preset : GrammarPreset α}
    (hchoice : preset.rules.NoChoice preset.randomness) (stage : Int) :
    preset.grow stage = preset.interpret
      (preset.rules.substitute (preset.generation stage).toNat preset.initial.toList) := by
  rw [grow_eq_growGenerations, growGenerations, Rules.expand_eq_pure hchoice, pure_bind]

/-- Without a choice, sources that refuse nothing decide rotations only. -/
theorem exists_plants_of_grow {preset : GrammarPreset α} {rotations : Rotations α}
    (hrotations : Rotations.ofAngle preset.angle = .ok rotations)
    (hchoice : preset.rules.NoChoice preset.randomness) (stage : Int) {s s' : Source α}
    (hs : s.Grants) (hs' : s'.Grants) (i i' : Nat) :
    ∃ plant plant' taken, (preset.grow stage).run s i = (.ok plant, i + taken) ∧
      (preset.grow stage).run s' i' = (.ok plant', i' + taken) ∧
      plant.unturned = plant'.unturned := by
  rw [grow_of_noChoice hchoice]
  exact (preset.alike_interpret hrotations _).exists_results
    (onlyRefuses_interpret hrotations _) hs hs' i i'

/-- Without a choice, an angle that has no turns is the fault of every plant. -/
theorem run_grow_of_error {preset : GrammarPreset α} {e : Fault}
    (hangle : Rotations.ofAngle preset.angle = .error e)
    (hchoice : preset.rules.NoChoice preset.randomness) (stage : Int) (s : Source α) (i : Nat) :
    (preset.grow stage).run s i = (.error e, i) := by
  rw [grow_of_noChoice hchoice, interpret, hangle]
  rfl

end GrammarPreset

/-! ## Plants of the catalogue -/

namespace Catalogue

variable {α : Type} [Scalar α]

/-- The plant of a species that grows from a grammar, from the draws of a key. -/
theorem plantNamed_of_grammar {catalogue : Catalogue α} {species : Species}
    {preset : GrammarPreset α} (hpreset : catalogue species = .grammar preset) {stage : Stage α}
    {n : Int} (hstage : stage.toInteger = .ok n) (key : String) (bloomColor : Option String) :
    catalogue.plantNamed species.name stage key bloomColor =
      (((preset.colored bloomColor).grow (min (max n 1) preset.iterations)).run
        (.keyed key) 0).1 := by
  have hbounded : catalogue.boundedStage species n = .ok (min (max n 1) preset.iterations) := by
    rw [boundedStage, greatestStage, hpreset]
    rfl
  rw [plantNamed, Species.named_name, hstage]
  show catalogue.plant species n key bloomColor = _
  rw [plant, hbounded, hpreset]
  rfl

/-- The key of a built-in fern decides nothing. -/
theorem exists_builtIn_fern {stage : Stage Float} {n : Int} (hstage : stage.toInteger = .ok n)
    (bloomColor : Option String) :
    ∃ plant, ∀ key, builtIn.plantNamed "fern" stage key bloomColor = .ok plant := by
  have hcatalogue : builtIn .fern = .grammar Species.fernPreset := rfl
  obtain ⟨rotations, hrotations⟩ := Species.exists_rotations_fern
  obtain ⟨hinitial, hrules, hangle⟩ :=
    (Species.fernPreset (α := Float)).colored_grammar bloomColor
  rw [← hangle] at hrotations
  obtain ⟨segments, -, hgrown⟩ := Species.growGenerations_fern hrules hinitial hrotations
    (((Species.fernPreset (α := Float)).colored bloomColor).generation
      (min (max n 1) (Species.fernPreset (α := Float)).iterations)).toNat
  refine ⟨⟨segments, [], []⟩, fun key => ?_⟩
  have hplant := plantNamed_of_grammar hcatalogue hstage key bloomColor
  rw [GrammarPreset.grow_eq_growGenerations, hgrown] at hplant
  exact hplant

/-- The key of a built-in flower decides only how its blooms are turned. -/
theorem exists_builtIn_flowers {stage : Stage Float} {n : Int}
    (hstage : stage.toInteger = .ok n) (bloomColor : Option String) (key key' : String) :
    ∃ plant plant', builtIn.plantNamed "flower" stage key bloomColor = .ok plant ∧
      builtIn.plantNamed "flower" stage key' bloomColor = .ok plant' ∧
      plant.leaves = [] ∧ plant'.leaves = [] ∧ plant.unturned = plant'.unturned := by
  have hcatalogue : builtIn .flower = .grammar Species.flowerPreset := rfl
  obtain ⟨rotations, hrotations⟩ := Species.exists_rotations_flower
  obtain ⟨hinitial, hrules, hangle⟩ :=
    (Species.flowerPreset (α := Float)).colored_grammar bloomColor
  rw [← hangle] at hrotations
  have hchoice (randomness : Float) :
      ((Species.flowerPreset (α := Float)).colored bloomColor).rules.NoChoice randomness := by
    rw [hrules]
    exact Rules.noChoice_doubling (by decide) randomness
  obtain ⟨plant, plant', taken, hrun, hrun', hsame⟩ :=
    GrammarPreset.exists_plants_of_grow hrotations (hchoice _)
      (min (max n 1) (Species.flowerPreset (α := Float)).iterations)
      (Source.grants_keyed key) (Source.grants_keyed key') 0 0
  have hplant := plantNamed_of_grammar hcatalogue hstage key bloomColor
  have hplant' := plantNamed_of_grammar hcatalogue hstage key' bloomColor
  rw [hrun] at hplant
  rw [hrun'] at hplant'
  obtain ⟨-, hleaves, -⟩ :=
    Species.lengths_of_run_growGenerations_flower hrules hinitial hrotations hrun
  obtain ⟨-, hleaves', -⟩ :=
    Species.lengths_of_run_growGenerations_flower hrules hinitial hrotations hrun'
  exact ⟨plant, plant', hplant, hplant', hleaves, hleaves', hsame⟩

end Catalogue

/-- Without a choice two sources that refuse nothing take the same number of draws for plants that
are the same but for rotations, unless the angle of the preset has no turns, which is then the fault
of both. So all keys grow the same fern, and two keys grow flowers that differ in the rotations of
their blooms only. -/
theorem seed_decides_rotations :
    (∀ (preset : GrammarPreset Float) (stage : Int) (s s' : Source Float) (i i' : Nat),
      preset.rules.NoChoice preset.randomness → s.Grants → s'.Grants →
      (∃ e, Rotations.ofAngle preset.angle = .error e ∧
        (preset.grow stage).run s i = (.error e, i) ∧
        (preset.grow stage).run s' i' = (.error e, i')) ∨
      ∃ plant plant' taken, (preset.grow stage).run s i = (.ok plant, i + taken) ∧
        (preset.grow stage).run s' i' = (.ok plant', i' + taken) ∧
        plant.unturned = plant'.unturned) ∧
    (∀ (stage : Stage Float) (n : Int) (bloomColor : Option String), stage.toInteger = .ok n →
      ∃ plant, ∀ key, Catalogue.builtIn.plantNamed "fern" stage key bloomColor = .ok plant) ∧
    (∀ (stage : Stage Float) (n : Int) (bloomColor : Option String) (key key' : String),
      stage.toInteger = .ok n →
      ∃ plant plant', Catalogue.builtIn.plantNamed "flower" stage key bloomColor = .ok plant ∧
        Catalogue.builtIn.plantNamed "flower" stage key' bloomColor = .ok plant' ∧
        plant.segments = plant'.segments ∧ plant.leaves = plant'.leaves ∧
        plant.blooms.map Ornament.unturned = plant'.blooms.map Ornament.unturned) := by
  refine ⟨?_, ?_, ?_⟩
  · intro preset stage s s' i i' hchoice hs hs'
    cases hangle : Rotations.ofAngle preset.angle with
    | error e =>
      have hfault := GrammarPreset.run_grow_of_error hangle hchoice stage
      exact .inl ⟨e, rfl, hfault s i, hfault s' i'⟩
    | ok rotations =>
      exact .inr (GrammarPreset.exists_plants_of_grow hangle hchoice stage hs hs' i i')
  · intro stage n bloomColor hstage
    exact Catalogue.exists_builtIn_fern hstage bloomColor
  · intro stage n bloomColor key key' hstage
    obtain ⟨plant, plant', hplant, hplant', hleaves, hleaves', hsame⟩ :=
      Catalogue.exists_builtIn_flowers hstage bloomColor key key'
    have hsegments : plant.unturned.segments = plant'.unturned.segments := by rw [hsame]
    have hblooms : plant.unturned.blooms = plant'.unturned.blooms := by rw [hsame]
    exact ⟨plant, plant', hplant, hplant', hsegments, hleaves.trans hleaves'.symm, hblooms⟩

/-- Two keys grow the built-in flower, and a fern of the same stage. -/
theorem seed_decides_rotations_flower :
    (∃ plant plant' taken,
      (Species.flowerPreset.grow 3).run (.keyed "rose" : Source Float) 0 = (.ok plant, 0 + taken) ∧
      (Species.flowerPreset.grow 3).run (.keyed "tulip" : Source Float) 0 =
        (.ok plant', 0 + taken) ∧
      plant.unturned = plant'.unturned) ∧
    (Stage.whole 3 : Stage Float).toInteger = .ok 3 ∧
    (∃ plant, ∀ key, Catalogue.builtIn.plantNamed "fern" (.whole 3) key none = .ok plant) ∧
    ∃ plant plant',
      Catalogue.builtIn.plantNamed "flower" (.whole 3) "rose" none = .ok plant ∧
      Catalogue.builtIn.plantNamed "flower" (.whole 3) "tulip" none = .ok plant' ∧
      plant.segments = plant'.segments ∧ plant.leaves = plant'.leaves ∧
      plant.blooms.map Ornament.unturned = plant'.blooms.map Ornament.unturned := by
  obtain ⟨hgrown, hfern, hflowers⟩ := seed_decides_rotations
  have hstage : (Stage.whole 3 : Stage Float).toInteger = .ok 3 := rfl
  refine ⟨?_, hstage, hfern (.whole 3) 3 none hstage, hflowers (.whole 3) 3 none _ _ hstage⟩
  obtain ⟨rotations, hrotations⟩ := Species.exists_rotations_flower
  have hchoice (randomness : Float) :
      (Species.flowerPreset (α := Float)).rules.NoChoice randomness :=
    Rules.noChoice_doubling (by decide) randomness
  rcases hgrown Species.flowerPreset 3 (.keyed "rose") (.keyed "tulip") 0 0 (hchoice _)
    (Source.grants_keyed _) (Source.grants_keyed _) with ⟨e, hangle, -, -⟩ | hplants
  · rw [hrotations] at hangle
    cases hangle
  · exact hplants

end PlantGrowth
