import Mathlib.Data.List.Induction
import Mathlib.Data.List.Nodup
import PlantGrowth.Vine.Assignment

/-!
# The sums of the pulls

Pulls are summed tip by tip as they come. What comes out is one sum for each tip, in the order in which
the tips are first pulled, and each sum adds up the pulls on its tip in their order (`tally_eq`).
-/

set_option autoImplicit false

namespace PlantGrowth.Assignment

variable {α : Type} [Scalar α]

/-- The pulls with the tips that they are on, summed by tips. -/
def tally (votes : List (Nat × Vec3 α)) : List (Nat × Vec3 α) :=
  votes.foldl (fun pulls vote => addPull vote.1 vote.2 pulls) []

/-- The first pull of a tip comes last, and is added to the origin. -/
theorem addPull_of_notMem {tip : Nat} {tips : List Nat} (htip : tip ∉ tips) (pull : Vec3 α)
    (sum : Nat → Vec3 α) :
    addPull tip pull (tips.map fun t => (t, sum t)) =
      tips.map (fun t => (t, sum t)) ++ [(tip, Vec3.origin + pull)] := by
  induction tips with
  | nil => rfl
  | cons other tips ih =>
    rw [List.mem_cons, not_or] at htip
    rw [List.map_cons, addPull, if_neg (Ne.symm htip.1), ih htip.2, List.cons_append]

/-- A further pull of a tip is added to its sum. -/
theorem addPull_of_mem {tip : Nat} {tips : List Nat} (hnodup : tips.Nodup) (htip : tip ∈ tips)
    (pull : Vec3 α) (sum : Nat → Vec3 α) :
    addPull tip pull (tips.map fun t => (t, sum t)) =
      tips.map fun t => (t, if t = tip then sum t + pull else sum t) := by
  induction tips with
  | nil => cases htip
  | cons other tips ih =>
    obtain ⟨hother, hnodup⟩ := List.nodup_cons.1 hnodup
    rw [List.map_cons, List.map_cons, addPull]
    by_cases heq : other = tip
    · subst heq
      have hrest : tips.map (fun t => (t, if t = other then sum t + pull else sum t)) =
          tips.map fun t => (t, sum t) :=
        List.map_congr_left fun t ht => by rw [if_neg (ne_of_mem_of_not_mem ht hother)]
      rw [if_pos rfl, if_pos rfl, hrest]
    · have htip : tip ∈ tips := List.mem_of_ne_of_mem (Ne.symm heq) htip
      rw [if_neg heq, if_neg heq, ih hnodup htip]

/-- An element that is appended is erased if it was there before. -/
theorem eraseDups_concat (xs : List Nat) (x : Nat) :
    (xs ++ [x]).eraseDups = if x ∈ xs then xs.eraseDups else xs.eraseDups ++ [x] := by
  rw [List.eraseDups_append]
  split
  · next hx => simp [List.removeAll, hx]
  · next hx => simp [List.removeAll, hx, List.eraseDups_cons]

/-- What is left has no duplicates. -/
theorem nodup_eraseDups (xs : List Nat) : xs.eraseDups.Nodup := by
  induction xs using List.reverseRecOn with
  | nil => exact List.nodup_nil
  | append_singleton xs x ih =>
    rw [eraseDups_concat]
    split
    · exact ih
    · next hx =>
      rw [← List.concat_eq_append]
      exact ih.concat fun h => hx (List.mem_eraseDups.1 h)

/-- The pulls are summed for each tip in the order of the votes, and the tips stand in the order of
their first votes. -/
theorem tally_eq (votes : List (Nat × Vec3 α)) :
    tally votes = (votes.map Prod.fst).eraseDups.map fun tip =>
      (tip, ((votes.filter fun vote => vote.1 = tip).map Prod.snd).foldl (· + ·) Vec3.origin) := by
  induction votes using List.reverseRecOn with
  | nil => rfl
  | append_singleton votes vote ih =>
    obtain ⟨tip, pull⟩ := vote
    rw [tally, List.foldl_append]
    change addPull tip pull (tally votes) = _
    rw [ih, List.map_append, List.map_singleton, eraseDups_concat]
    -- The last pull is on a tip that was pulled before, or it is the first one on its tip.
    by_cases htip : tip ∈ votes.map Prod.fst
    · rw [if_pos htip, addPull_of_mem (nodup_eraseDups _) (List.mem_eraseDups.2 htip)]
      refine List.map_congr_left fun t _ => ?_
      by_cases ht : t = tip
      · subst ht
        simp
      · simp [ht, Ne.symm ht]
    · have hnone : votes.filter (fun vote => vote.1 = tip) = [] := by
        refine List.filter_eq_nil_iff.2 fun vote hvote heq => htip ?_
        exact List.mem_map.2 ⟨vote, hvote, of_decide_eq_true heq⟩
      rw [if_neg htip, addPull_of_notMem fun h => htip (List.mem_eraseDups.1 h), List.map_append,
        List.map_singleton, List.filter_append, hnone]
      congr 1
      · refine List.map_congr_left fun t ht => ?_
        have hne : ¬ tip = t := fun heq => htip (heq ▸ List.mem_eraseDups.1 ht)
        simp [hne]
      · simp

end PlantGrowth.Assignment
