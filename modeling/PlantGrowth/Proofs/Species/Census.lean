import Mathlib.Tactic.Linarith
import Mathlib.Tactic.Ring
import PlantGrowth.Proofs.Grammar.Doubling
import PlantGrowth.Species.BuiltIn

/-!
# A census of the fern and the flower

Fern and flower grow from grammars of a bud. The numbers of buds, segments and blooms in their words
follow from what one generation does to them, and neither bud bears a leaf. So the size of a plant
of any generation is known in advance (`census_of_builtIn`), whatever the draws are.
-/

set_option autoImplicit false

namespace PlantGrowth

open Rules

/-- The plant of the word that many generations after the first one, and the draws that it takes. -/
def GrammarPreset.growGenerations {α : Type} [Scalar α] (preset : GrammarPreset α) (randomness : α)
    (generations : Nat) : Drawing α (Plant α) := do
  let word ← preset.rules.expand randomness generations preset.initial.toList
  preset.interpret word

namespace Species

/-! ## The words of a fern -/

/-- What the bud of a fern becomes. -/
def fernBud : String := "F[-X][X]F[-X]+X"

/-- The bud of the fern bears no leaf. -/
theorem leafless_fernBud : Leafless fernBud := by decide

/-- Each bud of a fern makes four buds and two segments, and no bloom. -/
theorem counts_flatMap_fern (word : List Char) :
    (word.flatMap (doubling fernBud).literal).count 'X' = 4 * word.count 'X' ∧
      (word.flatMap (doubling fernBud).literal).count 'F' =
        2 * word.count 'F' + 2 * word.count 'X' ∧
      (word.flatMap (doubling fernBud).literal).count '*' = word.count '*' := by
  have hbuds : fernBud.toList.count 'X' = 4 := by decide
  have hsegments : fernBud.toList.count 'F' = 2 := by decide
  have hblooms : fernBud.toList.count '*' = 0 := by decide
  simp only [count_flatMap_doubling leafless_fernBud.1, hbuds, hsegments, hblooms, copies,
    Char.reduceEq, if_true, if_false]
  omega

/-- After `n` generations each bud has become `4 ^ n` buds and has left segments that double. -/
theorem count_segments_fern (n : Nat) (word : List Char) :
    ((doubling fernBud).substitute n word).count 'F' + 2 ^ n * word.count 'X' =
      2 ^ n * word.count 'F' + 4 ^ n * word.count 'X' := by
  -- The first generation is taken off, so the hypothesis is used at the word after it.
  induction n generalizing word with
  | zero => simp [substitute]
  | succ n ih =>
    obtain ⟨hbuds, hsegments, -⟩ := counts_flatMap_fern word
    have hnext := ih (word.flatMap (doubling fernBud).literal)
    rw [hbuds, hsegments] at hnext
    rw [substitute_succ, pow_succ, pow_succ]
    linarith

/-- A fern keeps the number of its blooms. -/
theorem count_blooms_fern (n : Nat) (word : List Char) :
    ((doubling fernBud).substitute n word).count '*' = word.count '*' := by
  induction n generalizing word with
  | zero => rfl
  | succ n ih =>
    obtain ⟨-, -, hblooms⟩ := counts_flatMap_fern word
    rw [substitute_succ, ih, hblooms]

/-! ## The words of a flower -/

/-- What the bud of a flower becomes. -/
def flowerBud : String := "F[+X][-X]F*"

/-- The bud of the flower bears no leaf. -/
theorem leafless_flowerBud : Leafless flowerBud := by decide

/-- Each bud of a flower makes two buds, two segments and a bloom. -/
theorem counts_flatMap_flower (word : List Char) :
    (word.flatMap (doubling flowerBud).literal).count 'X' = 2 * word.count 'X' ∧
      (word.flatMap (doubling flowerBud).literal).count 'F' =
        2 * word.count 'F' + 2 * word.count 'X' ∧
      (word.flatMap (doubling flowerBud).literal).count '*' =
        word.count '*' + word.count 'X' := by
  have hbuds : flowerBud.toList.count 'X' = 2 := by decide
  have hsegments : flowerBud.toList.count 'F' = 2 := by decide
  have hblooms : flowerBud.toList.count '*' = 1 := by decide
  simp only [count_flatMap_doubling leafless_flowerBud.1, hbuds, hsegments, hblooms, copies,
    Char.reduceEq, if_true, if_false]
  omega

/-- The number of steps ahead in the word of a flower. -/
theorem count_segments_flower (n : Nat) (word : List Char) :
    ((doubling flowerBud).substitute n word).count 'F' =
      2 ^ n * word.count 'F' + n * 2 ^ n * word.count 'X' := by
  induction n generalizing word with
  | zero => simp [substitute]
  | succ n ih =>
    obtain ⟨hbuds, hsegments, -⟩ := counts_flatMap_flower word
    have hnext := ih (word.flatMap (doubling flowerBud).literal)
    rw [hbuds, hsegments] at hnext
    rw [substitute_succ, hnext, pow_succ]
    ring

/-- Every bud of a flower leaves blooms and buds. -/
theorem count_blooms_flower (n : Nat) (word : List Char) :
    ((doubling flowerBud).substitute n word).count '*' + word.count 'X' =
      word.count '*' + 2 ^ n * word.count 'X' := by
  induction n generalizing word with
  | zero => simp [substitute]
  | succ n ih =>
    obtain ⟨hbuds, -, hblooms⟩ := counts_flatMap_flower word
    have hnext := ih (word.flatMap (doubling flowerBud).literal)
    rw [hbuds, hblooms] at hnext
    rw [substitute_succ, pow_succ]
    linarith

/-- The blooms that one bud has become. -/
theorem count_blooms_grown_flower (n : Nat) :
    ((doubling flowerBud).substitute n ['X']).count '*' = 2 ^ n - 1 := by
  have hblooms : ((doubling flowerBud).substitute n ['X']).count '*' + 1 = 2 ^ n := by
    simpa using count_blooms_flower n ['X']
  omega

/-! ## The plants -/

section Plants

variable {α : Type} [Scalar α] {preset : GrammarPreset α} {rotations : Rotations α}

/-- The bud that a plant begins with bears no leaf. -/
theorem isChain_goesOn_initial : (['X'] ++ [']']).IsChain GoesOn := by decide

/-- What grows from a bud without alternatives is the interpretation of a substituted word. -/
theorem growGenerations_doubling {bud : String} (hbud : '|' ∉ bud.toList)
    (hrules : preset.rules = doubling bud) (hinitial : preset.initial = "X") (randomness : α)
    (n : Nat) :
    preset.growGenerations randomness n =
      preset.interpret ((doubling bud).substitute n ['X']) := by
  have hword : "X".toList = ['X'] := by decide
  have hexpand := expand_eq_pure (noChoice_doubling hbud randomness) n ['X']
  rw [GrammarPreset.growGenerations, hrules, hinitial, hword, hexpand, pure_bind]

/-- The fern of any generation consists of segments and takes no draw. -/
theorem growGenerations_fern (hrules : preset.rules = doubling fernBud)
    (hinitial : preset.initial = "X") (hrotations : Rotations.ofAngle preset.angle = .ok rotations)
    (n : Nat) :
    ∃ segments : List (Segment α), segments.length = 4 ^ n - 2 ^ n ∧
      ∀ randomness, preset.growGenerations randomness n = pure ⟨segments, [], []⟩ := by
  have hgoes := isChain_goesOn_substitute leafless_fernBud n isChain_goesOn_initial
  have hblooms : ((doubling fernBud).substitute n ['X']).count '*' = 0 := count_blooms_fern n ['X']
  have hsegments : ((doubling fernBud).substitute n ['X']).count 'F' + 2 ^ n = 4 ^ n := by
    simpa using count_segments_fern n ['X']
  have hplant := GrammarPreset.interpret_eq_pure hrotations hgoes hblooms
  refine ⟨_, ?_, fun randomness =>
    (growGenerations_doubling (by decide) hrules hinitial randomness n).trans hplant⟩
  rw [GrammarPreset.marksOf, Walk.length_segments_of_trace]
  omega

/-- Where a flower of any generation has a result, its size is that of the generation. -/
theorem lengths_of_run_growGenerations_flower (hrules : preset.rules = doubling flowerBud)
    (hinitial : preset.initial = "X") (hrotations : Rotations.ofAngle preset.angle = .ok rotations)
    {randomness : α} {n : Nat} {s : Source α} {i j : Nat} {plant : Plant α}
    (h : (preset.growGenerations randomness n).run s i = (.ok plant, j)) :
    plant.segments.length = n * 2 ^ n ∧ plant.leaves = [] ∧ plant.blooms.length = 2 ^ n - 1 := by
  rw [growGenerations_doubling (by decide) hrules hinitial] at h
  have hgoes := isChain_goesOn_substitute leafless_flowerBud n isChain_goesOn_initial
  have hsegments : ((doubling flowerBud).substitute n ['X']).count 'F' = n * 2 ^ n := by
    simpa using count_segments_flower n ['X']
  have hblooms := count_blooms_grown_flower n
  obtain ⟨hF, hstar⟩ := GrammarPreset.lengths_of_run_interpret hrotations h
  have hleaves := GrammarPreset.leaves_of_run_interpret_eq_nil hrotations h hgoes
  exact ⟨hF.trans hsegments, hleaves, hstar.trans hblooms⟩

/-- The flower of any generation takes three draws for each bloom. -/
theorem takes_growGenerations_flower (hrules : preset.rules = doubling flowerBud)
    (hinitial : preset.initial = "X") (hrotations : Rotations.ofAngle preset.angle = .ok rotations)
    (randomness : α) (n : Nat) :
    (preset.growGenerations randomness n).Takes (3 * (2 ^ n - 1)) := by
  have hgoes := isChain_goesOn_substitute leafless_flowerBud n isChain_goesOn_initial
  rw [growGenerations_doubling (by decide) hrules hinitial, ← count_blooms_grown_flower n]
  exact GrammarPreset.takes_interpret_of_isChain hrotations hgoes

end Plants

/-- The turns of the fern exist. -/
theorem exists_rotations_fern :
    ∃ rotations, Rotations.ofAngle (fernPreset (α := Float)).angle = .ok rotations := ⟨_, rfl⟩

/-- The turns of the flower exist. -/
theorem exists_rotations_flower :
    ∃ rotations, Rotations.ofAngle (flowerPreset (α := Float)).angle = .ok rotations := ⟨_, rfl⟩

/-- How large the fern and the flower of a generation are, and that neither bears a leaf. A fern
takes no draw. A flower takes three draws for each bloom; only if one of these is refused there is
no flower, and the refusal is the outcome. -/
theorem census_of_builtIn (randomness : Float) (n : Nat) (s : Source Float) (i : Nat) :
    (∃ plant, (fernPreset.growGenerations randomness n).run s i = (.ok plant, i) ∧
      plant.segments.length = 4 ^ n - 2 ^ n ∧ plant.leaves = [] ∧ plant.blooms = []) ∧
    ((∃ plant, (flowerPreset.growGenerations randomness n).run s i =
        (.ok plant, i + 3 * (2 ^ n - 1)) ∧
      plant.segments.length = n * 2 ^ n ∧ plant.leaves = [] ∧
        plant.blooms.length = 2 ^ n - 1) ∨
      ∃ k < 3 * (2 ^ n - 1), ∃ e, s (i + k) = .error e ∧
        (flowerPreset.growGenerations randomness n).run s i = (.error e, i + k + 1)) := by
  obtain ⟨fernTurns, hfern⟩ := exists_rotations_fern
  obtain ⟨flowerTurns, hflower⟩ := exists_rotations_flower
  constructor
  · obtain ⟨segments, hlength, hgrown⟩ := growGenerations_fern rfl rfl hfern n
    rw [hgrown]
    exact ⟨_, rfl, hlength, rfl, rfl⟩
  · rcases takes_growGenerations_flower rfl rfl hflower randomness n s i with
      ⟨plant, hrun⟩ | hrefused
    · have hlengths := lengths_of_run_growGenerations_flower rfl rfl hflower hrun
      exact .inl ⟨plant, hrun, hlengths⟩
    · exact .inr hrefused

end Species

end PlantGrowth
