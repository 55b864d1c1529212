import Mathlib.Logic.Function.Basic
import PlantGrowth.Draw.SeedHash

/-!
# Rounds of the seed hash

A round of the hash mixes a code unit into the word and multiplies by an odd prime. Both can be taken
back, so every row of units maps words to words without a collision (`foldl_absorb_injective`): what
is appended to two keys neither makes their hashes equal nor tells them apart. Units that are mixed into
the same word are told apart as well, so rows of units that differ at one place never hash alike
(`ofUnits_ne_of_differOnce`).
-/

set_option autoImplicit false

namespace PlantGrowth

namespace SeedHash

/-- The word that takes the factor of a round back. -/
def primeInverse : UInt32 := 0x359C449B

/-- The prime of the hash has an inverse among the words. -/
theorem prime_mul_primeInverse : prime * primeInverse = 1 := by decide

/-- No two words have the same product with the prime. -/
theorem mul_prime_injective : Function.Injective fun word => word * prime := by
  intro word word' h
  calc word = word * prime * primeInverse := by
        rw [UInt32.mul_assoc, prime_mul_primeInverse, UInt32.mul_one]
    _ = word' * prime * primeInverse := by
        simp only at h
        rw [h]
    _ = word' := by rw [UInt32.mul_assoc, prime_mul_primeInverse, UInt32.mul_one]

/-- To absorb a unit maps no two words to the same one. -/
theorem absorb_injective (unit : UInt16) : Function.Injective fun word => absorb word unit := by
  intro word word' h
  simp only [absorb] at h
  have hmixed := mul_prime_injective h
  exact (UInt32.xor_left_inj unit.toUInt32).1 hmixed

/-- Two words are told apart by the same units after them. -/
theorem foldl_absorb_injective (units : List UInt16) :
    Function.Injective fun word => units.foldl absorb word := by
  induction units with
  | nil => exact fun word word' h => h
  | cons unit others ih =>
    intro word word' h
    simp only [List.foldl_cons] at h
    exact absorb_injective unit (ih h)

/-! ## Rows that differ at one place -/

/-- Two rows of units of one length that differ at exactly one place. -/
def DifferOnce (units units' : List UInt16) : Prop :=
  units.length = units'.length ∧ ∃! place : Nat, units[place]? ≠ units'[place]?

variable {units units' : List UInt16}

/-- Rows that differ in one unit between the same front and back differ once. -/
theorem differOnce_append_cons (front : List UInt16) {unit unit' : UInt16} (hne : unit ≠ unit')
    (back : List UInt16) : DifferOnce (front ++ unit :: back) (front ++ unit' :: back) := by
  refine ⟨by simp, front.length, by simpa using hne, fun place hplace => ?_⟩
  by_contra hother
  refine hplace ?_
  rcases Nat.lt_or_gt_of_ne hother with hlt | hgt
  · rw [List.getElem?_append_left hlt, List.getElem?_append_left hlt]
  · obtain ⟨more, rfl⟩ := Nat.exists_eq_add_of_lt hgt
    rw [List.getElem?_append_right (by omega), List.getElem?_append_right (by omega),
      Nat.add_assoc, Nat.add_sub_cancel_left, List.getElem?_cons_succ, List.getElem?_cons_succ]

/-- The rows agree in front of the place and behind it. -/
theorem DifferOnce.exists_split (h : DifferOnce units units') :
    ∃ front unit unit' back,
      unit ≠ unit' ∧ units = front ++ unit :: back ∧ units' = front ++ unit' :: back := by
  obtain ⟨hlength, place, hne, hunique⟩ := h
  have hplace : place < units.length := by
    by_contra hout
    have hout := Nat.le_of_not_lt hout
    rw [List.getElem?_eq_none hout, List.getElem?_eq_none (hlength ▸ hout)] at hne
    exact hne rfl
  have hplace' : place < units'.length := hlength ▸ hplace
  rw [List.getElem?_eq_getElem hplace, List.getElem?_eq_getElem hplace'] at hne
  have hsame {other : Nat} (hother : other ≠ place) : units[other]? = units'[other]? := by
    by_contra hdiffers
    exact hother (hunique other hdiffers)
  have hfront : units.take place = units'.take place := by
    refine List.ext_getElem? fun other => ?_
    rw [List.getElem?_take, List.getElem?_take]
    split
    · next hlt => exact hsame (Nat.ne_of_lt hlt)
    · rfl
  have hback : units.drop (place + 1) = units'.drop (place + 1) := by
    refine List.ext_getElem? fun other => ?_
    rw [List.getElem?_drop, List.getElem?_drop]
    exact hsame (by omega)
  refine ⟨units.take place, units[place], units'[place], units.drop (place + 1),
    fun heq => hne (congrArg some heq), ?_, ?_⟩
  · rw [← List.drop_eq_getElem_cons hplace, List.take_append_drop]
  · rw [hfront, hback, ← List.drop_eq_getElem_cons hplace', List.take_append_drop]

/-- Two units are told apart by the word that they are mixed into. -/
theorem absorb_unit_injective (word : UInt32) : Function.Injective fun unit => absorb word unit := by
  intro unit unit' h
  simp only [absorb] at h
  have hmixed := mul_prime_injective h
  exact UInt16.toUInt32_inj.1 ((UInt32.xor_right_inj word).1 hmixed)

/-- The round at which the rows differ makes different words, and the rounds behind it tell these
apart. -/
theorem ofUnits_ne_of_differOnce (h : DifferOnce units units') : ofUnits units ≠ ofUnits units' := by
  obtain ⟨front, unit, unit', back, hne, rfl, rfl⟩ := h.exists_split
  rw [ofUnits_append, ofUnits_append, List.foldl_cons, List.foldl_cons]
  intro hsame
  have hround := foldl_absorb_injective back hsame
  exact hne (absorb_unit_injective (ofUnits front) hround)

end SeedHash

/-- What is appended to two keys does not matter for whether they hash alike. -/
theorem seedHash_append_eq_iff (key key' more : String) :
    seedHash (key ++ more) = seedHash (key' ++ more) ↔ seedHash key = seedHash key' := by
  rw [seedHash_append, seedHash_append]
  constructor
  · intro h
    exact SeedHash.foldl_absorb_injective (Text.units more.toList) h
  · intro h
    rw [h]

end PlantGrowth
