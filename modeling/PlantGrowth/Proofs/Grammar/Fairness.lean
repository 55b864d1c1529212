import Mathlib.Algebra.Order.Floor.Div
import PlantGrowth.Proofs.Draw.Generator
import PlantGrowth.Proofs.Grammar.Picks
import PlantGrowth.Proofs.Scalar.Truncation

/-!
# Fair picks of a seeded stream

A draw of a seed is a numerator `k` over `2 ^ 32`. Its product with the number of alternatives is a
double as long as they are no more than `2 ^ 21`, so the index of the alternative is a quotient of
integers, `k * count / 2 ^ 32`, and this is always the index of one of them (`standsFor_fraction`). The
numerators of an alternative follow each other (`filter_pickIndex_eq`), and how many they are differs
by at most one between the alternatives.
-/

set_option autoImplicit false

namespace PlantGrowth

open Finset (range Ico)

/-- The draw with this numerator. -/
def Mulberry.fraction {α : Type} [Scalar α] (k : Nat) : α := Scalar.ofNat k / 4294967296.0

namespace Rules

/-- The index of the alternative that the draw with numerator `k` stands for. -/
def pickIndex (count k : Nat) : Nat := k * count / 2 ^ 32

/-! ## The index of a draw -/

/-- The index that a draw picks is below the number of alternatives. -/
theorem pickIndex_lt {count k : Nat} (hcount : 0 < count) (hk : k < 2 ^ 32) :
    pickIndex count k < count := by
  rw [pickIndex, Nat.div_lt_iff_lt_mul (by positivity), Nat.mul_comm count]
  exact Nat.mul_lt_mul_of_pos_right hk hcount

/-- The product of a draw and a number of alternatives is not rounded, so its floor is the index
that is picked. -/
theorem toInteger_fraction_mul {count k : Nat} (hcount : count ≤ 2 ^ 21) (hk : k < 2 ^ 32) :
    Scalar.toInteger Scalar.floor (Mulberry.fraction k * Scalar.ofNat count : Float) =
      .ok (pickIndex count k : Int) := by
  have hfloor : ⌊((k * count : ℕ) / 2 ^ 32 : ℝ)⌋ = (pickIndex count k : Int) := by
    have hden : (2 ^ 32 : ℝ) = (2 ^ 32 : ℕ) := by norm_num
    rw [hden, Int.floor_div_natCast, Int.floor_natCast]
    rfl
  rw [← hfloor]
  exact Double.toInteger_floor_of_value (Double.value_fraction_mul hk hcount)

/-- No draw of a seed has to be cut down to the last alternative. -/
theorem standsFor_fraction {count k : Nat} (hpos : 0 < count) (hcount : count ≤ 2 ^ 21)
    (hk : k < 2 ^ 32) : StandsFor (Mulberry.fraction k : Float) count (pickIndex count k) := by
  have hlt := pickIndex_lt hpos hk
  exact ⟨_, toInteger_fraction_mul hcount hk, by omega⟩

/-! ## The numerators of an alternative -/

/-- The numerators of an alternative are those from the first one of its part to the last one. -/
theorem filter_pickIndex_eq {count index : Nat} (hindex : index < count) :
    ((range (2 ^ 32)).filter fun k => pickIndex count k = index) =
      Ico ((index * 2 ^ 32) ⌈/⌉ count) (((index + 1) * 2 ^ 32) ⌈/⌉ count) := by
  have hpos : 0 < count := Nat.zero_lt_of_lt hindex
  ext k
  have hpicked : pickIndex count k = index ↔
      index * 2 ^ 32 ≤ count * k ∧ count * k < (index + 1) * 2 ^ 32 := by
    rw [pickIndex, Nat.div_eq_iff (by positivity), Nat.mul_comm k]
    omega
  rw [Finset.mem_filter, Finset.mem_range, hpicked, Finset.mem_Ico, ceilDiv_le_iff_le_smul hpos,
    lt_iff_lt_of_le_iff_le (ceilDiv_le_iff_le_smul hpos), smul_eq_mul, and_iff_right_iff_imp]
  rintro ⟨-, hupper⟩
  apply Nat.lt_of_mul_lt_mul_left (a := count)
  exact hupper.trans_le (Nat.mul_le_mul_right _ hindex)

/-- Between a number and its sum with `size`, the quotients rounded up grow by the quotient of `size`,
rounded down or up. -/
theorem ceilDiv_sub_ceilDiv {count : Nat} (hpos : 0 < count) (first size : Nat) :
    (first + size) ⌈/⌉ count - first ⌈/⌉ count = size / count ∨
      (first + size) ⌈/⌉ count - first ⌈/⌉ count = size ⌈/⌉ count := by
  have hsum : first + size ≤ count * ((first + size) ⌈/⌉ count) := le_smul_ceilDiv hpos
  have hdown := Nat.mul_div_le size count
  have hupper : (first + size) ⌈/⌉ count ≤ first ⌈/⌉ count + size ⌈/⌉ count := by
    rw [ceilDiv_le_iff_le_smul hpos, smul_add]
    exact Nat.add_le_add (le_smul_ceilDiv hpos) (le_smul_ceilDiv hpos)
  have hquotient : size / count ≤ (first + size) ⌈/⌉ count := by
    apply Nat.le_of_mul_le_mul_left _ hpos
    omega
  have hlower : first ⌈/⌉ count ≤ (first + size) ⌈/⌉ count - size / count := by
    rw [ceilDiv_le_iff_le_smul hpos, smul_eq_mul, Nat.mul_sub]
    omega
  have hnext : size ⌈/⌉ count ≤ size / count + 1 := by
    rw [ceilDiv_le_iff_le_smul hpos]
    exact (Nat.lt_mul_div_succ size hpos).le
  omega

/-- No alternative has two numerators more than another one. -/
theorem card_filter_pickIndex {count index : Nat} (hindex : index < count) :
    ((range (2 ^ 32)).filter fun k => pickIndex count k = index).card = 2 ^ 32 / count ∨
      ((range (2 ^ 32)).filter fun k => pickIndex count k = index).card = 2 ^ 32 ⌈/⌉ count := by
  rw [filter_pickIndex_eq hindex, Nat.card_Ico, Nat.add_one_mul]
  exact ceilDiv_sub_ceilDiv (Nat.zero_lt_of_lt hindex) _ _

/-- Of the first natural numbers a draw stands for its index. -/
theorem StandsFor.chosen_range {u : Float} {count index : Nat} (h : StandsFor u count index) :
    chosen (List.range count) u = .ok index := by
  have helement : (List.range count)[index]? = some index := List.getElem?_range h.lt
  rw [← List.length_range (n := count)] at h
  exact h.chosen_eq_ok helement

/-- The draws that choose an index are those that pick it. -/
theorem filter_chosen_eq {count : Nat} (hpos : 0 < count) (hcount : count ≤ 2 ^ 21) (index : Nat) :
    ((range (2 ^ 32)).filter fun k =>
        chosen (List.range count) (Mulberry.fraction k : Float) = .ok index) =
      (range (2 ^ 32)).filter fun k => pickIndex count k = index := by
  apply Finset.filter_congr
  intro k hk
  rw [(standsFor_fraction hpos hcount (Finset.mem_range.1 hk)).chosen_range, Except.ok.injEq]

/-! ## Expansions -/

/-- The choices of a seeded source fall at the indices that its outputs pick. -/
theorem fallsAt_seeded {rules : Rules} {symbol : Char}
    (hcount : ∀ text, rules.HasRule symbol text → (text.toList.splitOn '|').length ≤ 2 ^ 21)
    (seed : Int) (i : Nat) :
    rules.FallsAt (fun count n => pickIndex count (Mulberry.Wide.output seed n))
      (.seeded seed : Source Float) symbol i := by
  intro text hrule
  have hpos := List.length_pos_iff.2 (List.splitOn_ne_nil '|' text.toList)
  dsimp only
  rw [Mulberry.Wide.output_eq]
  exact ⟨_, rfl, standsFor_fraction hpos (hcount text hrule) (UInt32.toNat_lt _)⟩

/-- On a seeded stream the draw with numerator `k` picks the alternative at `k * count / 2 ^ 32` of a
rule with `count`, as long as there are not more than `2 ^ 21`. This index is below `count` as it is, so
it is never cut down to the last one. Of the `2 ^ 32` numerators each alternative has the quotient of
`2 ^ 32` and `count`, rounded down or up. A rule without a bar takes no draw for its only alternative. So
an expansion never fails, and its word and the number of its draws are computed in integers. -/
theorem seeded_picks_are_fair (rules : Rules) {randomness : Float} (hrandom : 0 < randomness) :
    (∀ count, 1 ≤ count → count ≤ 2 ^ 21 →
      (∀ k < 2 ^ 32,
        Scalar.toInteger Scalar.floor (Mulberry.fraction k * Scalar.ofNat count : Float) =
          .ok (k * count / 2 ^ 32 : Nat) ∧
        k * count / 2 ^ 32 < count) ∧
      ∀ index < count,
        let picking := (range (2 ^ 32)).filter fun k =>
          chosen (List.range count) (Mulberry.fraction k : Float) = .ok index
        picking.card = 2 ^ 32 / count ∨ picking.card = 2 ^ 32 ⌈/⌉ count) ∧
    (∀ symbol text, rules.HasRule symbol text →
      let parts := text.toList.splitOn '|'
      parts.length ≤ 2 ^ 21 → ∀ (seed : Int) (i : Nat), ∃ part,
        parts[Mulberry.Wide.output seed i * parts.length / 2 ^ 32]? = some part ∧
        (rules.successor randomness symbol).run (.seeded seed) i =
          (.ok part, if '|' ∈ text.toList then i + 1 else i)) ∧
    ((∀ symbol text, rules.HasRule symbol text → (text.toList.splitOn '|').length ≤ 2 ^ 21) →
      ∀ (seed : Int) (depth : Nat) (word : List Char) (i : Nat),
        (rules.expand randomness depth word).run (.seeded seed) i =
          let step := rules.pickStep fun count n => Mulberry.Wide.output seed n * count / 2 ^ 32
          (.ok (step^[depth] (word, i)).1, (step^[depth] (word, i)).2)) := by
  refine ⟨?_, ?_, ?_⟩
  · intro count hpos hcount
    refine ⟨fun k hk => ⟨toInteger_fraction_mul hcount hk, pickIndex_lt hpos hk⟩, ?_⟩
    intro index hindex
    rw [filter_chosen_eq hpos hcount]
    exact card_filter_pickIndex hindex
  · intro symbol text hrule parts hcount seed i
    have hfalls := fallsAt_seeded (fun other hother => by rwa [hother.unique hrule]) seed i
    obtain ⟨u, -, hstands⟩ := hfalls text hrule
    refine ⟨_, getElem?_pick hrule hstands.lt, ?_⟩
    rw [run_successor_of_fallsAt hrandom hfalls, choices_of_hasRule hrule, add_ite]
    rfl
  · intro hcount seed depth word i
    exact run_expand_of_fallsAt hrandom
      (fun symbol i => fallsAt_seeded (hcount symbol) seed i) depth word i

/-- The last numerator picks the last one of three alternatives, and the second one has a third of the
numerators. From a seed below zero the bud splits at first, and then one bud grows on and one splits. -/
theorem seeded_picks_are_fair_splitting :
    (0 : Float) < 0.5 ∧
    Scalar.toInteger Scalar.floor (Mulberry.fraction (2 ^ 32 - 1) * Scalar.ofNat 3 : Float) =
      .ok 2 ∧
    (((range (2 ^ 32)).filter fun k =>
        chosen (List.range 3) (Mulberry.fraction k : Float) = .ok 1).card = 1431655765 ∨
      ((range (2 ^ 32)).filter fun k =>
        chosen (List.range 3) (Mulberry.fraction k : Float) = .ok 1).card = 1431655766) ∧
    (splitting.HasRule 'A' "BA|AA" ∧ (splitting.successor (0.5 : Float) 'A').run (.seeded (-1)) 0 =
      (.ok ['A', 'A'], 1)) ∧
    (∀ symbol text, splitting.HasRule symbol text → (text.toList.splitOn '|').length ≤ 2 ^ 21) ∧
    (splitting.expand (0.5 : Float) 2 ['A', 'B']).run (.seeded (-1)) 0 =
      (.ok "BAAABBBB".toList, 3) := by
  have hrandom : (0 : Float) < 0.5 := by decide
  have hrule : splitting.HasRule 'A' "BA|AA" := ⟨by decide, by decide⟩
  have hcount : ∀ symbol text, splitting.HasRule symbol text →
      (text.toList.splitOn '|').length ≤ 2 ^ 21 := by
    intro symbol text hrule
    have hentry := hrule.mem_entries
    simp only [splitting, List.mem_cons, List.not_mem_nil, or_false, Prod.mk.injEq] at hentry
    rcases hentry with ⟨-, rfl⟩ | ⟨-, rfl⟩ <;> decide
  obtain ⟨hdraws, hsymbol, hexpansion⟩ := seeded_picks_are_fair splitting hrandom
  obtain ⟨hindex, hnumerators⟩ := hdraws 3 (by decide) (by decide)
  obtain ⟨part, hpart, hrun⟩ := hsymbol 'A' "BA|AA" hrule (hcount _ _ hrule) (-1) 0
  have hsplit : some part = some ['A', 'A'] := hpart.symm.trans (by decide +kernel)
  cases hsplit
  refine ⟨hrandom, (hindex (2 ^ 32 - 1) (by decide)).1, hnumerators 1 (by decide), ⟨hrule, hrun⟩,
    hcount, ?_⟩
  rw [hexpansion hcount (-1) 2 ['A', 'B'] 0]
  decide +kernel

end Rules

end PlantGrowth
