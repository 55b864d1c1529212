import Mathlib.Algebra.Order.Floor.Semifield
import PlantGrowth.Proofs.Draw.UnitInterval
import PlantGrowth.Proofs.Grammar.Derivation

/-!
# The language of a grammar

In exact arithmetic the alternatives of a rule share the draws from zero to one evenly, so each of
them is reached by a draw, and by a draw of a few binary digits already, if there are not more
alternatives than such draws (`exists_gridDraw`). Where alternatives are drawn, the words that an
expansion makes are therefore just the words that the grammar derives
(`expand_generates_language`).
-/

set_option autoImplicit false

namespace PlantGrowth

/-- A source that refuses no draw, and whose draws are multiples of `1 / 2 ^ digits` from zero on
and below one. -/
def Source.OnGrid (digits : Nat) (s : Source ℝ) : Prop :=
  ∀ n, ∃ u, s n = .ok u ∧ ∃ c : Nat, c < 2 ^ digits ∧ u = c / 2 ^ digits

namespace Rules

/-! ## Draws that choose an alternative -/

/-- A draw chooses the element whose index is the integer part of its multiple. -/
theorem chosen_eq_ok {β : Type} {elements : List β} {u : ℝ} {index : Nat}
    (hfloor : ⌊u * elements.length⌋ = index) {element : β}
    (helement : elements[index]? = some element) : chosen elements u = .ok element := by
  obtain ⟨hindex, -⟩ := List.getElem?_eq_some_iff.1 helement
  have hstands : StandsFor u elements.length index := by
    refine ⟨index, ?_, by omega⟩
    rw [Scalar.exact_toInteger, ← hfloor]
    rfl
  exact hstands.chosen_eq_ok helement

/-- The interval of each of some equal parts holds a multiple of `1 / 2 ^ digits`, if there are not
more parts than multiples. -/
theorem exists_gridDraw {index count digits : Nat} (hindex : index < count)
    (hcount : count ≤ 2 ^ digits) :
    ∃ c : Nat, c < 2 ^ digits ∧ ⌊(c / 2 ^ digits : ℝ) * count⌋ = index := by
  have hpositive : 0 < count := Nat.zero_lt_of_lt hindex
  obtain ⟨c, hlower, hupper⟩ : ∃ c, index * 2 ^ digits ≤ c * count ∧
      c * count < (index + 1) * 2 ^ digits := by
    -- The least multiple that is not below the interval.
    refine ⟨(index * 2 ^ digits + count - 1) / count, ?_, ?_⟩
    · have := Nat.lt_div_mul_add (a := index * 2 ^ digits + count - 1) hpositive
      omega
    · have := Nat.div_mul_le_self (index * 2 ^ digits + count - 1) count
      rw [Nat.succ_mul]
      omega
  refine ⟨c, ?_, ?_⟩
  · have hbelow : c * count < 2 ^ digits * count := by
      calc c * count < (index + 1) * 2 ^ digits := hupper
        _ ≤ count * 2 ^ digits := Nat.mul_le_mul_right _ hindex
        _ = 2 ^ digits * count := Nat.mul_comm _ _
    exact Nat.lt_of_mul_lt_mul_right hbelow
  · have hgrid : (0 : ℝ) < 2 ^ digits := by positivity
    rw [Int.floor_eq_iff, div_mul_eq_mul_div, le_div_iff₀ hgrid, div_lt_iff₀ hgrid]
    constructor
    · exact_mod_cast hlower
    · exact_mod_cast hupper

/-- Each element is chosen by a draw from a grid that is fine enough. -/
theorem exists_gridDraw_chosen {β : Type} {elements : List β} {element : β}
    (hmem : element ∈ elements) {digits : Nat} (hlength : elements.length ≤ 2 ^ digits) :
    ∃ c : Nat, c < 2 ^ digits ∧ chosen elements (c / 2 ^ digits : ℝ) = .ok element := by
  obtain ⟨index, helement⟩ := List.mem_iff_getElem?.1 hmem
  obtain ⟨hindex, -⟩ := List.getElem?_eq_some_iff.1 helement
  obtain ⟨c, hc, hfloor⟩ := exists_gridDraw hindex hlength
  exact ⟨c, hc, chosen_eq_ok hfloor helement⟩

/-- A grid that is fine enough for every rule reaches all alternatives. -/
theorem reaches_grid {rules : Rules} {digits : Nat}
    (h : ∀ symbol text, rules.HasRule symbol text →
      (text.toList.splitOn '|').length ≤ 2 ^ digits) :
    rules.Reaches fun u : ℝ => ∃ c : Nat, c < 2 ^ digits ∧ u = c / 2 ^ digits := by
  intro symbol text hrule part hpart
  obtain ⟨c, hc, hchosen⟩ := exists_gridDraw_chosen hpart (h symbol text hrule)
  exact ⟨_, ⟨c, hc, rfl⟩, hchosen⟩

/-- The draws from zero to one reach all alternatives of all rules. -/
theorem reaches_unit (rules : Rules) : rules.Reaches fun u : ℝ => 0 ≤ u ∧ u < 1 := by
  intro symbol text _ part hpart
  -- There are fewer alternatives than draws with as many digits.
  obtain ⟨c, hc, hchosen⟩ := exists_gridDraw_chosen hpart (Nat.le_of_lt Nat.lt_two_pow_self)
  refine ⟨_, ⟨by positivity, ?_⟩, hchosen⟩
  rw [div_lt_one (by positivity)]
  exact_mod_cast hc

/-! ## The language -/

/-- The words that an expansion makes of draws from zero to one, below one, are the words that the
grammar derives. If no rule has more than `2 ^ digits` parts, draws of that many binary digits make
all of them. -/
theorem expand_generates_language {randomness : ℝ} (hrandom : 0 < randomness) (rules : Rules)
    (generations : Nat) (word : List Char) :
    {result | ∃ s : Source ℝ, s.InUnit ∧
        ∃ j, (rules.expand randomness generations word).run s 0 = (.ok result, j)} =
      {result | rules.Derives generations word result} ∧
    ∀ digits : Nat, (∀ symbol text, rules.HasRule symbol text →
        (text.toList.splitOn '|').length ≤ 2 ^ digits) →
      {result | ∃ s : Source ℝ, s.OnGrid digits ∧
          ∃ j, (rules.expand randomness generations word).run s 0 = (.ok result, j)} =
        {result | rules.Derives generations word result} := by
  constructor
  · ext result
    exact exists_run_expand_iff_derives hrandom rules.reaches_unit ⟨le_refl 0, zero_lt_one⟩
  · intro digits hdigits
    have hzero : ∃ c : Nat, c < 2 ^ digits ∧ (0 : ℝ) = c / 2 ^ digits :=
      ⟨0, Nat.two_pow_pos digits, by simp⟩
    ext result
    exact exists_run_expand_iff_derives hrandom (reaches_grid hdigits) hzero

/-- A symbol that leaves a trace behind or vanishes. -/
def fading : Rules := ⟨[("A", "AB|")]⟩

/-- In two generations the symbol can leave a trace and then vanish, by draws of one binary digit.
-/
theorem expand_generates_language_fading :
    (0 : ℝ) < 1 ∧
    (∀ symbol text, fading.HasRule symbol text → (text.toList.splitOn '|').length ≤ 2 ^ 1) ∧
    (∃ s : Source ℝ, s.InUnit ∧
      ∃ j, (fading.expand (1 : ℝ) 2 ['A']).run s 0 = (.ok ['B'], j)) ∧
    ∃ s : Source ℝ, s.OnGrid 1 ∧ ∃ j, (fading.expand (1 : ℝ) 2 ['A']).run s 0 = (.ok ['B'], j) := by
  have hrule : fading.HasRule 'A' "AB|" := ⟨by decide, by decide⟩
  have hdigits : ∀ symbol text, fading.HasRule symbol text →
      (text.toList.splitOn '|').length ≤ 2 ^ 1 := by
    intro symbol text hrule
    have hentry := hrule.mem_entries
    simp only [fading, List.mem_singleton, Prod.mk.injEq] at hentry
    rw [hentry.2]
    decide
  have hgrown : fading.Rewrites 'A' ['A', 'B'] := .part "AB|" hrule _ (by decide)
  have hgone : fading.Rewrites 'A' [] := .part "AB|" hrule _ (by decide)
  have hkept : fading.Rewrites 'B' ['B'] := by
    refine .kept ?_
    rintro text ⟨hlookup, -⟩
    cases hlookup
  have hderives : ['B'] ∈ {result | fading.Derives 2 ['A'] result} :=
    Derives.step (.cons hgrown .nil) (.step (.cons hgone (.cons hkept .nil)) (.refl _))
  obtain ⟨hunit, hgrid⟩ := expand_generates_language one_pos fading 2 ['A']
  refine ⟨one_pos, hdigits, ?_, ?_⟩
  · rw [← hunit] at hderives
    exact hderives
  · rw [← hgrid 1 hdigits] at hderives
    exact hderives

end Rules

end PlantGrowth
