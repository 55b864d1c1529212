import Mathlib.Analysis.SpecialFunctions.Trigonometric.Basic
import PlantGrowth.Proofs.Grammar.Alphabet
import PlantGrowth.Proofs.Planting.SeedIndependence
import PlantGrowth.Proofs.Turtle.Placement
import PlantGrowth.Proofs.Turtle.Plane
import PlantGrowth.Proofs.Vine.OutOfReach

/-!
# Flat species

A grammar without pitch and roll grows flat plants, whatever alternatives are drawn: an expansion does
not leave the alphabet of its rules (`GrammarPreset.isFlat_of_run_grow`). The fern and the flower grow
from such grammars, so in exact arithmetic all their plants are flat (`plants_of_yaws_are_flat`).
-/

set_option autoImplicit false

namespace PlantGrowth

/-! ## Grammars without pitch and roll -/

/-- Neither the first word of a preset nor the texts of its rules hold a turn about the other axes. -/
structure GrammarPreset.OnlyYaws {α : Type} (preset : GrammarPreset α) : Prop where
  initial : ∀ c ∈ preset.initial.toList, c ∉ tiltSymbols
  rules : preset.rules.Writes fun c => c ∉ tiltSymbols

/-- A grammar of a bud writes what the bud does, and segments. -/
theorem Rules.writes_doubling {bud : String} {P : Char → Prop} (hbud : ∀ c ∈ bud.toList, P c)
    (hsegment : P 'F') : (doubling bud).Writes P := by
  intro symbol text hrule
  rcases text_of_hasRule_doubling hrule with rfl | rfl
  · exact hbud
  · have hpair : "FF".toList = ['F', 'F'] := rfl
    rw [hpair]
    exact List.forall_mem_cons.2 ⟨hsegment, List.forall_mem_singleton.2 hsegment⟩

namespace GrammarPreset

/-- A preset that grows from a bud without tilts has only yaws. -/
theorem onlyYaws_of_bud {α : Type} {preset : GrammarPreset α} {bud : String}
    (hinitial : preset.initial = "X") (hrules : preset.rules = Rules.doubling bud)
    (hbud : ∀ c ∈ bud.toList, c ∉ tiltSymbols) : preset.OnlyYaws := by
  constructor
  · rw [hinitial]
    simp [tiltSymbols]
  · rw [hrules]
    exact Rules.writes_doubling hbud (by decide)

variable {preset : GrammarPreset ℝ}

/-- Colours turn nothing. -/
theorem OnlyYaws.colored (hyaws : preset.OnlyYaws) (bloomColor : Option String) :
    (preset.colored bloomColor).OnlyYaws := by
  obtain ⟨hinitial, hrules, -⟩ := preset.colored_grammar bloomColor
  constructor
  · rw [hinitial]
    exact hyaws.initial
  · rw [hrules]
    exact hyaws.rules

/-- A plant that grows from yaws is flat. -/
theorem isFlat_of_run_grow (hyaws : preset.OnlyYaws) {stage : Int} {s : Source ℝ} {i j : Nat}
    {plant : Plant ℝ} (h : (preset.grow stage).run s i = (.ok plant, j)) : plant.IsFlat := by
  obtain ⟨word, k, hword, h⟩ := Drawing.run_bind_eq_ok_iff.1 h
  exact isFlat_of_run_interpret (Rules.forall_mem_of_run_expand hyaws.rules hyaws.initial hword) h

/-- Without a choice a preset with only yaws has a plant at every stage, and it is flat. -/
theorem exists_isFlat_of_noChoice (hyaws : preset.OnlyYaws)
    (hchoice : preset.rules.NoChoice preset.randomness) (stage : Int) {s : Source ℝ}
    (hs : s.Grants) (i : Nat) :
    ∃ plant j, (preset.grow stage).run s i = (.ok plant, j) ∧ plant.IsFlat := by
  obtain ⟨plant, j, hplant⟩ := preset.exists_plant_exact
    (preset.rules.substitute (preset.generation stage).toNat preset.initial.toList) hs i
  rw [← grow_of_noChoice hchoice] at hplant
  exact ⟨plant, j, hplant, isFlat_of_run_grow hyaws hplant⟩

end GrammarPreset

/-! ## Plants of the catalogue -/

/-- In exact arithmetic every stage that is there stands for an integer. -/
theorem Stage.exists_toInteger_exact {stage : Stage ℝ} (hstage : stage ≠ .absent) :
    ∃ n, stage.toInteger = .ok n := by
  cases stage with
  | absent => exact absurd rfl hstage
  | whole n => exact ⟨n, rfl⟩
  | real x => exact ⟨_, rfl⟩

namespace Catalogue

variable {catalogue : Catalogue ℝ} {species : Species} {preset : GrammarPreset ℝ}

/-- A species that grows from a bud without pitch, roll and bars has a plant, and all its plants are
flat. -/
theorem exists_isFlat_of_bud (hpreset : catalogue species = .grammar preset) {bud : String}
    (hinitial : preset.initial = "X") (hrules : preset.rules = Rules.doubling bud)
    (hbud : ∀ c ∈ bud.toList, c ∉ tiltSymbols) (hbar : '|' ∉ bud.toList) {stage : Stage ℝ}
    (hstage : stage ≠ .absent) (key : String) (bloomColor : Option String) :
    ∃ plant, catalogue.plantNamed species.name stage key bloomColor = .ok plant ∧
      plant.IsFlat := by
  obtain ⟨n, hn⟩ := Stage.exists_toInteger_exact hstage
  obtain ⟨-, hcolored, -⟩ := preset.colored_grammar bloomColor
  have hyaws := (GrammarPreset.onlyYaws_of_bud hinitial hrules hbud).colored bloomColor
  have hchoice : (preset.colored bloomColor).rules.NoChoice
      (preset.colored bloomColor).randomness := by
    rw [hcolored, hrules]
    exact Rules.noChoice_doubling hbar _
  obtain ⟨plant, j, hplant, hflat⟩ := GrammarPreset.exists_isFlat_of_noChoice hyaws hchoice
    (min (max n 1) preset.iterations) (Source.grants_keyed key) 0
  refine ⟨plant, ?_, hflat⟩
  rw [plantNamed_of_grammar hpreset hn, hplant]

end Catalogue

/-- In exact arithmetic a word without pitch and roll makes a flat plant, whatever the preset and
the draws; only a draw that is refused keeps it from making one. So at every stage, from every key and
with every colour there is a fern and a flower, and it is flat. -/
theorem plants_of_yaws_are_flat :
    (∀ (preset : GrammarPreset ℝ) (word : List Char) (s : Source ℝ) (i : Nat),
      (∀ c ∈ word, c ∉ tiltSymbols) →
      (∃ plant j, (preset.interpret word).run s i = (.ok plant, j) ∧ plant.IsFlat) ∨
        ∃ n e j, s n = .error e ∧ (preset.interpret word).run s i = (.error e, j)) ∧
    ∀ (species : Species) (stage : Stage ℝ) (key : String) (bloomColor : Option String),
      species = .fern ∨ species = .flower → stage ≠ .absent →
      ∃ plant, Catalogue.builtInExact.plantNamed species.name stage key bloomColor = .ok plant ∧
        plant.IsFlat := by
  constructor
  · intro preset word s i hword
    obtain ⟨rotations, hrotations, -⟩ := Rotations.exists_ofAngle_exact preset.angle
    refine ((GrammarPreset.onlyRefuses_interpret hrotations word).result_or_refused s i).imp_left ?_
    rintro ⟨plant, j, hplant⟩
    exact ⟨plant, j, hplant, GrammarPreset.isFlat_of_run_interpret hword hplant⟩
  · intro species stage key bloomColor hspecies hstage
    rcases hspecies with rfl | rfl
    · exact Catalogue.exists_isFlat_of_bud rfl rfl rfl (by simp [tiltSymbols]) (by decide) hstage
        key bloomColor
    · exact Catalogue.exists_isFlat_of_bud rfl rfl rfl (by simp [tiltSymbols]) (by decide) hstage
        key bloomColor

/-- A word with a branch, a bloom and a close that closes nothing, and the flower of a key. -/
theorem plants_of_yaws_are_flat_flower :
    (∀ c ∈ ['F', '[', '+', 'F', '*', ']', ']', '-', 'F'], c ∉ tiltSymbols) ∧
    (∃ plant j, (Species.flowerPreset.interpret
      ['F', '[', '+', 'F', '*', ']', ']', '-', 'F']).run (fun _ => .ok (1 / 4 : ℝ)) 0 =
        (.ok plant, j) ∧ plant.IsFlat) ∧
    (Stage.whole 3 : Stage ℝ) ≠ .absent ∧
    ∃ plant, Catalogue.builtInExact.plantNamed "flower" (.whole 3) "rose" none = .ok plant ∧
      plant.IsFlat := by
  have hword : ∀ c ∈ ['F', '[', '+', 'F', '*', ']', ']', '-', 'F'], c ∉ tiltSymbols := by
    simp [tiltSymbols]
  have hstage : (Stage.whole 3 : Stage ℝ) ≠ .absent := by simp
  refine ⟨hword, ?_, hstage, plants_of_yaws_are_flat.2 .flower _ "rose" none (.inr rfl) hstage⟩
  rcases plants_of_yaws_are_flat.1 Species.flowerPreset _ (fun _ => .ok (1 / 4 : ℝ)) 0 hword with
    hplant | ⟨n, e, j, hrefused, -⟩
  · exact hplant
  · cases hrefused

end PlantGrowth
