import PlantGrowth.Grammar.Growth
import PlantGrowth.Proofs.Draw.Generator
import PlantGrowth.Proofs.Grammar.Picks
import PlantGrowth.Proofs.Grammar.Unwritten
import PlantGrowth.Proofs.Scalar.Truncation
import PlantGrowth.Proofs.Turtle.Count
import PlantGrowth.Species.BuiltIn

/-!
# Later stages of a plant

A later stage goes through the word of an earlier one, which it makes of the same draws, and lets more
generations pass over it. A symbol that every part of its own rule holds is not lost on the way
(`Rules.count_le_of_run_expand`): each of its occurrences becomes at least one. So the plants of later
stages have no fewer segments, if this is so for the step ahead.
-/

set_option autoImplicit false

namespace PlantGrowth

namespace Rules

/-! ## Symbols that are not lost -/

/-- Every part of the rule of a symbol, if it has one, holds the symbol. -/
def Keeps (rules : Rules) (symbol : Char) : Prop :=
  ∀ text, rules.HasRule symbol text → ∀ part ∈ text.toList.splitOn '|', symbol ∈ part

/-- The text of the rule of a symbol that is kept has the symbol in it. -/
theorem Keeps.mem_text {rules : Rules} {symbol : Char} (hkeeps : rules.Keeps symbol) {text : String}
    (hrule : rules.HasRule symbol text) : symbol ∈ text.toList := by
  obtain ⟨part, hpart⟩ := List.exists_mem_of_ne_nil _ (List.splitOn_ne_nil '|' text.toList)
  exact mem_of_mem_splitOn hpart (hkeeps text hrule part hpart)

section Runs

variable {α : Type} [Scalar α] {rules : Rules} {randomness : α} {kept : Char} {s : Source α}
  {i j : Nat}

/-- Each occurrence becomes at least one. -/
theorem count_le_of_run_successor (hkeeps : rules.Keeps kept) {symbol : Char} {part : List Char}
    (h : (rules.successor randomness symbol).run s i = (.ok part, j)) :
    [symbol].count kept ≤ part.count kept := by
  by_cases hsymbol : symbol = kept
  · subst hsymbol
    rw [List.count_singleton_self]
    apply List.one_le_count_iff.2
    rcases run_successor_cases h with
      ⟨-, rfl, -⟩ | ⟨text, hrule, ⟨-, rfl, -⟩ | ⟨-, -, -, u, -, hchosen⟩⟩
    · exact List.mem_singleton_self symbol
    · exact hkeeps.mem_text hrule
    · exact hkeeps text hrule part (mem_of_chosen_eq_ok hchosen)
  · rw [List.count_singleton, if_neg (by simpa using hsymbol)]
    exact Nat.zero_le _

/-- The next generation has the kept symbol at least as often. -/
theorem count_le_of_run_nextGeneration (hkeeps : rules.Keeps kept) {word next : List Char}
    (h : (rules.nextGeneration randomness word).run s i = (.ok next, j)) :
    word.count kept ≤ next.count kept := by
  induction word generalizing next i with
  | nil => exact Nat.zero_le _
  | cons symbol word ih =>
    rw [nextGeneration_cons] at h
    obtain ⟨part, k, hpart, h⟩ := Drawing.run_bind_eq_ok_iff.1 h
    obtain ⟨rest, l, hrest, h⟩ := Drawing.run_bind_eq_ok_iff.1 h
    cases h
    rw [← List.singleton_append, List.count_append, List.count_append]
    exact Nat.add_le_add (count_le_of_run_successor hkeeps hpart) (ih hrest)

/-- After any number of generations the kept symbol is there at least as often. -/
theorem count_le_of_run_expand (hkeeps : rules.Keeps kept) {generations : Nat}
    {word result : List Char}
    (h : (rules.expand randomness generations word).run s i = (.ok result, j)) :
    word.count kept ≤ result.count kept := by
  induction generations generalizing word i with
  | zero =>
    cases h
    exact le_rfl
  | succ generations ih =>
    rw [expand_succ] at h
    obtain ⟨next, k, hnext, h⟩ := Drawing.run_bind_eq_ok_iff.1 h
    exact (count_le_of_run_nextGeneration hkeeps hnext).trans (ih h)

/-- Of two expansions on the same draws the deeper one has made the word of the other one on its way. -/
theorem count_le_of_run_expand_le (hkeeps : rules.Keeps kept) {generations deeper : Nat}
    (hle : generations ≤ deeper) {word result result' : List Char} {j' : Nat}
    (h : (rules.expand randomness generations word).run s i = (.ok result, j))
    (h' : (rules.expand randomness deeper word).run s i = (.ok result', j')) :
    result.count kept ≤ result'.count kept := by
  obtain ⟨more, rfl⟩ := Nat.exists_eq_add_of_le hle
  rw [expand_add, Drawing.run_bind_of_ok h] at h'
  exact count_le_of_run_expand hkeeps h'

end Runs

/-! ## Draws from zero to one -/

/-- A draw from zero to one stands for an alternative, unless there are more of them than a double can
count. -/
theorem exists_standsFor {u : Float} (hle : 0 ≤ u) (hlt : u < 1) {count : Nat} (hpos : 0 < count)
    (hcount : count ≤ 2 ^ 1023) : ∃ index, StandsFor u count index := by
  have hzero : Double.value? 0 = some 0 := rfl
  have hone : Double.value? 1 = some 1 := Double.value_one
  obtain ⟨r, hr, hr0, hr1⟩ := Double.exists_value_of_between hzero hone hle hlt
  have hbound : |(count : ℝ)| ≤ 2 ^ (1023 : ℤ) := by
    rw [Nat.abs_cast]
    exact_mod_cast hcount
  obtain ⟨c, hc, hrounds⟩ :=
    (Double.isRounding_ofNat count).exists_value (by norm_num) (by norm_num) hbound
  have hproduct : |r * c| ≤ 2 ^ (1023 : ℤ) := by
    rw [abs_mul, abs_of_nonneg hr0]
    exact (mul_le_of_le_one_left (abs_nonneg c) hr1.le).trans
      (hrounds.abs_le _ (by norm_num) hbound)
  obtain ⟨v, hv, hrounds'⟩ :=
    (Double.isRounding_mul hr hc).exists_value (by norm_num) (by norm_num) hproduct
  have hnonneg : 0 ≤ ⌊v⌋ := by
    apply Int.floor_nonneg.2
    exact hrounds'.nonneg (mul_nonneg hr0 (hrounds.nonneg (Nat.cast_nonneg count)))
  refine ⟨(min ⌊v⌋ (count - 1)).toNat, ⌊v⌋, Double.toInteger_floor_of_value hv, ?_⟩
  omega

/-- Where no rule has too many alternatives, every choice on draws from zero to one falls
somewhere. -/
theorem exists_index_fallsAt {rules : Rules}
    (hcount : ∀ symbol text, rules.HasRule symbol text → (text.toList.splitOn '|').length ≤ 2 ^ 1023)
    {s : Source Float} (hs : s.InUnit) : ∃ index, ∀ symbol i, rules.FallsAt index s symbol i := by
  have hindex (count i : Nat) : ∃ index, 0 < count → count ≤ 2 ^ 1023 →
      ∃ u, s i = .ok u ∧ StandsFor u count index := by
    obtain ⟨u, hu, hle, hlt⟩ := hs i
    by_cases hrange : 0 < count ∧ count ≤ 2 ^ 1023
    · obtain ⟨index, hstands⟩ := exists_standsFor hle hlt hrange.1 hrange.2
      exact ⟨index, fun _ _ => ⟨u, hu, hstands⟩⟩
    · exact ⟨0, fun hpos hcount => absurd ⟨hpos, hcount⟩ hrange⟩
  choose index hindex using hindex
  refine ⟨index, fun symbol i text hrule => hindex _ i ?_ (hcount symbol text hrule)⟩
  exact List.length_pos_iff.2 (List.splitOn_ne_nil _ _)

/-- On draws from zero to one an expansion has no fault. -/
theorem exists_run_expand {rules : Rules} {s : Source Float} (hs : s.InUnit)
    (hcount : ∀ symbol text, rules.HasRule symbol text → (text.toList.splitOn '|').length ≤ 2 ^ 1023)
    (randomness : Float) (generations : Nat) (word : List Char) (i : Nat) :
    ∃ result j, (rules.expand randomness generations word).run s i = (.ok result, j) := by
  by_cases hrandom : 0 < randomness
  · obtain ⟨index, hfalls⟩ := exists_index_fallsAt hcount hs
    exact ⟨_, _, run_expand_of_fallsAt hrandom hfalls generations word i⟩
  · rw [expand_eq_pure (.inl hrandom)]
    exact ⟨_, i, rfl⟩

end Rules

/-! ## Plants -/

namespace GrammarPreset

/-- A later stage has no fewer generations. -/
theorem toNat_generation_le {α : Type} (preset : GrammarPreset α) {stage later : Int}
    (hle : stage ≤ later) :
    (preset.generation stage).toNat ≤ (preset.generation later).toNat := by
  unfold generation
  omega

variable {α : Type} [Scalar α] {preset : GrammarPreset α} {s : Source α} {i j : Nat}

/-- A plant has a segment for each step ahead in the word of its stage. -/
theorem exists_word_of_run_grow {stage : Int} {plant : Plant α}
    (h : (preset.grow stage).run s i = (.ok plant, j)) :
    ∃ word k, (preset.wordAt stage).run s i = (.ok word, k) ∧
      plant.segments.length = word.count 'F' := by
  obtain ⟨word, k, hword, h⟩ := Drawing.run_bind_eq_ok_iff.1 h
  cases hangle : Rotations.ofAngle preset.angle with
  | error e =>
    rw [interpret, hangle] at h
    cases h
  | ok rotations => exact ⟨word, k, hword, (lengths_of_run_interpret hangle h).1⟩

/-- Where the step ahead is kept, a plant has no fewer segments at a later stage of the same
draws. -/
theorem segments_length_le_of_run_grow (hkeeps : preset.rules.Keeps 'F') {stage later : Int}
    (hle : stage ≤ later) {plant plant' : Plant α} {j' : Nat}
    (h : (preset.grow stage).run s i = (.ok plant, j))
    (h' : (preset.grow later).run s i = (.ok plant', j')) :
    plant.segments.length ≤ plant'.segments.length := by
  obtain ⟨word, k, hword, hlength⟩ := exists_word_of_run_grow h
  obtain ⟨word', k', hword', hlength'⟩ := exists_word_of_run_grow h'
  rw [hlength, hlength']
  exact Rules.count_le_of_run_expand_le hkeeps (preset.toNat_generation_le hle) hword hword'

end GrammarPreset

/-- On draws from zero to one a plant is made, unless the angle of the preset has no turns. -/
theorem GrammarPreset.run_grow_of_inUnit (preset : GrammarPreset Float) {s : Source Float}
    (hs : s.InUnit) (hcount : ∀ symbol text, preset.rules.HasRule symbol text →
      (text.toList.splitOn '|').length ≤ 2 ^ 1023) (stage : Int) (i : Nat) :
    ∃ j, (∃ e, Rotations.ofAngle preset.angle = .error e ∧
        (preset.grow stage).run s i = (.error e, j)) ∨
      ∃ rotations plant, Rotations.ofAngle preset.angle = .ok rotations ∧
        (preset.grow stage).run s i = (.ok plant, j) := by
  obtain ⟨word, k, hword⟩ := Rules.exists_run_expand hs hcount preset.randomness
    (preset.generation stage).toNat preset.initial.toList i
  have hgrow : (preset.grow stage).run s i = (preset.interpret word).run s k :=
    Drawing.run_bind_of_ok hword
  rw [hgrow]
  cases hangle : Rotations.ofAngle preset.angle with
  | error e =>
    refine ⟨k, .inl ⟨e, rfl, ?_⟩⟩
    rw [interpret, hangle]
    rfl
  | ok rotations =>
    have hgrants : s.Grants := fun n => (hs n).imp fun u hu => hu.1
    obtain ⟨plant, j, hplant⟩ := (onlyRefuses_interpret hangle word).exists_result hgrants k
    exact ⟨j, .inr ⟨rotations, plant, rfl, hplant⟩⟩

/-- The built-in grammars keep the step ahead. -/
theorem Species.keeps_builtIn {species : Species} {preset : GrammarPreset Float}
    (h : Catalogue.builtIn species = .grammar preset) : preset.rules.Keeps 'F' := by
  have hkeeps {text first : String} (hrule : Rules.HasRule ⟨[("X", first), ("F", "FF")]⟩ 'F' text) :
      ∀ part ∈ text.toList.splitOn '|', 'F' ∈ part := by
    cases hrule.1
    decide
  cases species with
  | fern =>
    cases h
    exact fun text hrule => hkeeps hrule
  | flower =>
    cases h
    exact fun text hrule => hkeeps hrule
  | vine => cases h

/-- If each part of the rule of the step ahead holds a step ahead, as in the built-in presets, no stage
has fewer segments than an earlier one of the same draws, whether alternatives are drawn or not. On draws
from zero to one both stages have a plant or the same fault, that of an angle without turns; this
asks for texts with less than `2 ^ 1023` bars. -/
theorem later_stage_keeps_segments :
    (∀ (species : Species) (preset : GrammarPreset Float),
      Catalogue.builtIn species = .grammar preset → preset.rules.Keeps 'F') ∧
    ∀ preset : GrammarPreset Float, preset.rules.Keeps 'F' →
      ∀ stage later : Int, stage ≤ later →
        (∀ (s : Source Float) (i j j' : Nat) (plant plant' : Plant Float),
          (preset.grow stage).run s i = (.ok plant, j) →
          (preset.grow later).run s i = (.ok plant', j') →
            plant.segments.length ≤ plant'.segments.length) ∧
        ((∀ symbol text, preset.rules.HasRule symbol text →
            (text.toList.splitOn '|').length ≤ 2 ^ 1023) →
          ∀ (s : Source Float), s.InUnit → ∀ i : Nat, ∃ j j',
            (∃ e, Rotations.ofAngle preset.angle = .error e ∧
              (preset.grow stage).run s i = (.error e, j) ∧
              (preset.grow later).run s i = (.error e, j')) ∨
            ∃ plant plant', (preset.grow stage).run s i = (.ok plant, j) ∧
              (preset.grow later).run s i = (.ok plant', j') ∧
              plant.segments.length ≤ plant'.segments.length) := by
  refine ⟨fun species preset h => Species.keeps_builtIn h, ?_⟩
  intro preset hkeeps stage later hle
  refine ⟨?_, ?_⟩
  · intro s i j j' plant plant' h h'
    exact GrammarPreset.segments_length_le_of_run_grow hkeeps hle h h'
  · intro hcount s hs i
    obtain ⟨j, hrun⟩ := preset.run_grow_of_inUnit hs hcount stage i
    obtain ⟨j', hrun'⟩ := preset.run_grow_of_inUnit hs hcount later i
    refine ⟨j, j', ?_⟩
    rcases hrun with ⟨e, hangle, hrun⟩ | ⟨rotations, plant, hangle, hrun⟩
    · rcases hrun' with ⟨e', hangle', hrun'⟩ | ⟨rotations', plant', hangle', -⟩
      · cases hangle.symm.trans hangle'
        exact .inl ⟨e, hangle, hrun, hrun'⟩
      · cases hangle.symm.trans hangle'
    · rcases hrun' with ⟨e', hangle', -⟩ | ⟨rotations', plant', -, hrun'⟩
      · cases hangle.symm.trans hangle'
      · exact .inr ⟨plant, plant', hrun, hrun',
          GrammarPreset.segments_length_le_of_run_grow hkeeps hle hrun hrun'⟩

/-- A stem that grows on or forks. -/
def Species.forkingPreset : GrammarPreset Float :=
  { fernPreset with initial := "F", rules := ⟨[("F", "FF|F[+F]")]⟩ }

/-- The second stage of the forking stem has no fewer segments than the first one. -/
theorem later_stage_keeps_segments_forking :
    Species.forkingPreset.rules.Keeps 'F' ∧ (1 : Int) ≤ 2 ∧
    (∀ symbol text, Species.forkingPreset.rules.HasRule symbol text →
      (text.toList.splitOn '|').length ≤ 2 ^ 1023) ∧
    (Source.seeded 7 : Source Float).InUnit ∧
    ∃ plant plant' j j', (Species.forkingPreset.grow 1).run (.seeded 7) 0 = (.ok plant, j) ∧
      (Species.forkingPreset.grow 2).run (.seeded 7) 0 = (.ok plant', j') ∧
      plant.segments.length ≤ plant'.segments.length := by
  have hentry {symbol : Char} {text : String}
      (hrule : Species.forkingPreset.rules.HasRule symbol text) : text = "FF|F[+F]" := by
    have hmem := hrule.mem_entries
    rw [Species.forkingPreset, List.mem_singleton, Prod.mk.injEq] at hmem
    exact hmem.2
  have hkeeps : Species.forkingPreset.rules.Keeps 'F' := by
    intro text hrule
    rw [hentry hrule]
    decide
  have hcount : ∀ symbol text, Species.forkingPreset.rules.HasRule symbol text →
      (text.toList.splitOn '|').length ≤ 2 ^ 1023 := by
    intro symbol text hrule
    have htwo : ("FF|F[+F]".toList.splitOn '|').length = 2 := by decide
    rw [hentry hrule, htwo]
    exact le_self_pow₀ one_le_two (by decide)
  have hle : (1 : Int) ≤ 2 := by decide
  have hs := Mulberry.inUnit_seeded_double 7
  obtain ⟨-, hstages⟩ := later_stage_keeps_segments
  obtain ⟨-, hplants⟩ := hstages Species.forkingPreset hkeeps 1 2 hle
  obtain ⟨j, j', ⟨e, hangle, -⟩ | ⟨plant, plant', hrun, hrun', hlength⟩⟩ :=
    hplants hcount (.seeded 7) hs 0
  · cases hangle
  · exact ⟨hkeeps, hle, hcount, hs, plant, plant', j, j', hrun, hrun', hlength⟩

end PlantGrowth
