import PlantGrowth.Proofs.Space.Direction
import PlantGrowth.Proofs.Vine.Pulls
import PlantGrowth.Proofs.Vine.Vote

/-!
# The competition for attractors

What a round is (`IsContest`): the attractors that no tip is near enough to consume are left, each of
them votes for at most one tip, and a tip is pulled by the sum of the directions towards its voters. A
round of doubles does not fail and is of this kind, whatever the doubles are (`assign_isContest`).
-/

set_option autoImplicit false

namespace PlantGrowth.Assignment

section

variable {α : Type} [Scalar α] (reach : Reach α) (nodes : Array (Node α)) (tips : List Nat)

/-! ## Contests -/

/-- The attractors that vote for a tip. -/
def voters (attractors : List (Vec3 α)) (tip : Nat) : List (Vec3 α) :=
  attractors.filter fun attractor => vote reach nodes tips attractor = some tip

/-- The round leaves the attractors that are not consumed, and of these all vote that have a tip in
reach. It pulls the tips that they vote for, in the order of the first votes, each by the sum of the
directions towards its voters. -/
structure IsContest (attractors : List (Vec3 α)) (round : Assignment α) : Prop where
  survivors_eq : round.survivors =
    attractors.filter fun attractor => ¬ IsConsumed reach nodes tips attractor
  idle_iff : ∀ attractor ∈ round.survivors, vote reach nodes tips attractor = none ↔
    ∀ tip ∈ tips, ¬ InReach reach nodes attractor tip
  tips_eq : round.pulls.map Prod.fst =
    (round.survivors.filterMap (vote reach nodes tips)).eraseDups
  sum_eq : ∀ tip sum, (tip, sum) ∈ round.pulls → ∃ units,
    (voters reach nodes tips round.survivors tip).mapM
      (fun attractor => (attractor - placeOf nodes tip).normalize) = .ok units ∧
    sum = units.foldl (· + ·) Vec3.origin

/-! ## The fates of attractors -/

/-- The direction from a tip towards an attractor, where there is one. -/
def unitFrom (tip : Nat) (attractor : Vec3 α) : Vec3 α :=
  (attractor - placeOf nodes tip).normalize.toOption.getD Vec3.origin

/-- The fate of an attractor that its vote decides. -/
def fateOf (attractor : Vec3 α) : Fate α :=
  if IsConsumed reach nodes tips attractor then .consumed
  else match vote reach nodes tips attractor with
    | none => .idle
    | some tip => .pulling tip (unitFrom nodes tip attractor)

/-- The tips that attractors vote for, with the directions towards the attractors. -/
def ballots (attractors : List (Vec3 α)) : List (Nat × Vec3 α) :=
  attractors.filterMap fun attractor =>
    (vote reach nodes tips attractor).map fun tip => (tip, unitFrom nodes tip attractor)

/-- The ballots are for the tips that are voted for. -/
theorem map_fst_ballots (attractors : List (Vec3 α)) :
    (ballots reach nodes tips attractors).map Prod.fst =
      attractors.filterMap (vote reach nodes tips) := by
  rw [ballots, List.map_filterMap]
  congr 1
  funext attractor
  cases vote reach nodes tips attractor <;> rfl

/-- The ballots for a tip are those of its voters. -/
theorem filter_ballots (attractors : List (Vec3 α)) (tip : Nat) :
    ((ballots reach nodes tips attractors).filter fun ballot => ballot.1 = tip).map Prod.snd =
      (voters reach nodes tips attractors tip).map (unitFrom nodes tip) := by
  induction attractors with
  | nil => rfl
  | cons attractor others ih =>
    simp only [ballots, voters] at ih ⊢
    cases hvote : vote reach nodes tips attractor with
    | none => simpa [hvote] using ih
    | some choice =>
      by_cases hchoice : choice = tip <;> simpa [hvote, hchoice] using ih

/-- The round of the fates that the votes decide. -/
def roundOf (attractors : List (Vec3 α)) : Assignment α :=
  ofFates (attractors.map fun attractor => (attractor, fateOf reach nodes tips attractor))

/-- The survivors of a round are the attractors that no tip consumes. -/
theorem survivors_roundOf (attractors : List (Vec3 α)) :
    (roundOf reach nodes tips attractors).survivors =
      attractors.filter fun attractor => ¬ IsConsumed reach nodes tips attractor := by
  simp only [roundOf, ofFates]
  induction attractors with
  | nil => rfl
  | cons attractor others ih =>
    rw [List.map_cons, List.filterMap_cons, List.filter_cons, ih, fateOf]
    by_cases hconsumed : IsConsumed reach nodes tips attractor
    · simp [hconsumed]
    · cases vote reach nodes tips attractor <;> simp [hconsumed]

/-- What is consumed does not vote. -/
theorem foldl_collect_fateOf (attractors : List (Vec3 α)) (pulls : List (Nat × Vec3 α)) :
    (attractors.map (fateOf reach nodes tips)).foldl collect pulls =
      (ballots reach nodes tips
        (attractors.filter fun attractor => ¬ IsConsumed reach nodes tips attractor)).foldl
          (fun pulls vote => addPull vote.1 vote.2 pulls) pulls := by
  induction attractors generalizing pulls with
  | nil => rfl
  | cons attractor others ih =>
    rw [List.map_cons, List.foldl_cons, ih, fateOf]
    by_cases hconsumed : IsConsumed reach nodes tips attractor
    · simp [hconsumed, collect]
    · cases hvote : vote reach nodes tips attractor <;>
        simp [hconsumed, hvote, collect, ballots]

/-- The pulls of a round are counted from the ballots of its survivors. -/
theorem pulls_roundOf (attractors : List (Vec3 α)) :
    (roundOf reach nodes tips attractors).pulls =
      tally (ballots reach nodes tips (roundOf reach nodes tips attractors).survivors) := by
  rw [survivors_roundOf, tally, ← foldl_collect_fateOf, roundOf, ofFates, List.map_map]
  rfl

end

/-! ## Rounds of doubles -/

section

variable {reach : Reach Float} {nodes : Array (Node Float)} {tips : List Nat}

/-- An attractor that votes for a tip has a direction from it, since their distance is finite. -/
theorem normalize_of_vote {attractor : Vec3 Float} {tip : Nat}
    (h : vote reach nodes tips attractor = some tip) :
    (attractor - placeOf nodes tip).normalize = .ok (unitFrom nodes tip attractor) := by
  have hreach := (isNearest_of_vote h).1
  obtain ⟨unit, hunit, -⟩ := Vec3.exists_normalize_sub hreach.2
  rw [unitFrom, hunit]
  rfl

/-- The fate of an attractor is settled by the tips it has in reach. -/
theorem fate_eq (htips : ∀ tip ∈ tips, tip < nodes.size) (attractor : Vec3 Float) :
    fate reach nodes tips attractor = .ok (fateOf reach nodes tips attractor) := by
  rw [fate, seek_eq reach nodes attractor htips, fateOf]
  by_cases hconsumed : IsConsumed reach nodes tips attractor
  · rw [if_pos hconsumed, if_pos hconsumed]
    rfl
  · rw [if_neg hconsumed, if_neg hconsumed, ← (leads_foldl tips).vote_eq]
    cases hvote : vote reach nodes tips attractor with
    | none => rfl
    | some tip =>
      obtain ⟨node, hnode, hplace⟩ := nodeAt_of_lt (htips tip (mem_of_vote hvote))
      have hunit := normalize_of_vote hvote
      rw [← hplace] at hunit
      simp only [bind, Except.bind, hnode, hunit]
      rfl

/-- No round of doubles fails. -/
theorem assign_eq (htips : ∀ tip ∈ tips, tip < nodes.size) (attractors : List (Vec3 Float)) :
    assign reach nodes tips attractors = .ok (roundOf reach nodes tips attractors) := by
  have hfate (attractor : Vec3 Float) :
      (do
        let f ← fate reach nodes tips attractor
        return (attractor, f)) =
      (pure (attractor, fateOf reach nodes tips attractor) : Except Fault _) := by
    rw [fate_eq htips]
    rfl
  rw [assign]
  simp only [hfate, List.mapM_pure]
  rfl

/-- The directions of the voters of a tip exist. -/
theorem mapM_normalize_voters (attractors : List (Vec3 Float)) (tip : Nat) :
    (voters reach nodes tips attractors tip).mapM
        (fun attractor => (attractor - placeOf nodes tip).normalize) =
      .ok ((voters reach nodes tips attractors tip).map (unitFrom nodes tip)) := by
  induction attractors with
  | nil => rfl
  | cons attractor others ih =>
    rw [voters] at ih ⊢
    rw [List.filter_cons]
    split
    · next hvote =>
      rw [List.mapM_cons, normalize_of_vote (of_decide_eq_true hvote), ih]
      rfl
    · exact ih

/-- The round of the tips is a contest. -/
theorem isContest_roundOf (attractors : List (Vec3 Float)) :
    IsContest reach nodes tips attractors (roundOf reach nodes tips attractors) := by
  refine ⟨survivors_roundOf reach nodes tips attractors, fun _ _ => vote_eq_none_iff, ?_,
    fun tip sum hsum => ?_⟩
  · rw [pulls_roundOf, tally_eq, List.map_map, map_fst_ballots]
    exact List.map_id _
  · rw [pulls_roundOf, tally_eq] at hsum
    obtain ⟨voted, hvoted, heq⟩ := List.mem_map.1 hsum
    cases heq
    exact ⟨_, mapM_normalize_voters _ _, by rw [filter_ballots]⟩

variable {others : List Nat}

/-- The survivors do not depend on the order of the tips. -/
theorem survivors_roundOf_perm (h : others.Perm tips) (attractors : List (Vec3 Float)) :
    (roundOf reach nodes others attractors).survivors =
      (roundOf reach nodes tips attractors).survivors := by
  rw [survivors_roundOf, survivors_roundOf]
  simp only [isConsumed_perm h]

/-- Without a tie the round does not depend on the order of the tips. -/
theorem roundOf_perm (h : others.Perm tips) {attractors : List (Vec3 Float)}
    (huntied : ∀ attractor ∈ attractors, ¬ IsTied nodes tips attractor) :
    roundOf reach nodes others attractors = roundOf reach nodes tips attractors := by
  have hfates : ∀ attractor ∈ attractors,
      (attractor, fateOf reach nodes others attractor) =
        (attractor, fateOf reach nodes tips attractor) := by
    intro attractor hattractor
    simp only [fateOf, isConsumed_perm h, vote_perm h (huntied attractor hattractor)]
  rw [roundOf, roundOf, List.map_congr_left hfates]

/-- A round never fails and is a contest. The order of the tips does not matter for what is left of the
attractors, and it does not matter for the pulls, if no attractor has two equally near tips. -/
theorem assign_isContest (reach : Reach Float) {nodes : Array (Node Float)} {tips : List Nat}
    (htips : ∀ tip ∈ tips, tip < nodes.size) (attractors : List (Vec3 Float)) :
    ∃ round, assign reach nodes tips attractors = .ok round ∧
      IsContest reach nodes tips attractors round ∧
      ∀ others, others.Perm tips → ∃ reordered, assign reach nodes others attractors = .ok reordered ∧
        reordered.survivors = round.survivors ∧
        ((∀ attractor ∈ attractors, ¬ IsTied nodes tips attractor) →
          reordered.pulls = round.pulls) := by
  refine ⟨_, assign_eq htips attractors, isContest_roundOf attractors, fun others h => ?_⟩
  have hothers : ∀ tip ∈ others, tip < nodes.size := fun tip htip => htips tip (h.mem_iff.1 htip)
  refine ⟨_, assign_eq hothers attractors, survivors_roundOf_perm h attractors, fun huntied => ?_⟩
  rw [roundOf_perm h huntied]

/-- One attractor for each of two tips, one that is consumed, and one out of reach. -/
theorem assign_isContest_twoTips :
    let reach : Reach Float := ⟨4, 0.25⟩
    let nodes : Array (Node Float) := #[⟨⟨0, 0, 0⟩, 0, 1⟩, ⟨⟨0, 4, 0⟩, 1, 1⟩]
    let attractors : List (Vec3 Float) := [⟨1, 4, 0⟩, ⟨0, 3.75, 0⟩, ⟨1, 0, 0⟩, ⟨9, 9, 9⟩]
    ∃ round, assign reach nodes [0, 1] attractors = .ok round ∧
      IsContest reach nodes [0, 1] attractors round ∧
      round.survivors = [⟨1, 4, 0⟩, ⟨1, 0, 0⟩, ⟨9, 9, 9⟩] ∧ round.pulls.map Prod.fst = [1, 0] ∧
      ∃ reordered, assign reach nodes [1, 0] attractors = .ok reordered ∧
        reordered.pulls = round.pulls := by
  intro reach nodes attractors
  have htips : ∀ tip ∈ [0, 1], tip < nodes.size := by decide
  obtain ⟨round, hround, hcontest, hreordered⟩ := assign_isContest reach htips attractors
  obtain ⟨reordered, hassign, -, hpulls⟩ := hreordered [1, 0] (.swap 0 1 [])
  have huntied : ∀ attractor ∈ attractors, ¬ IsTied nodes [0, 1] attractor := by decide +kernel
  have hsurvivors : round.survivors = [⟨1, 4, 0⟩, ⟨1, 0, 0⟩, ⟨9, 9, 9⟩] := by
    rw [hcontest.survivors_eq]
    decide +kernel
  refine ⟨round, hround, hcontest, hsurvivors, ?_, reordered, hassign, hpulls huntied⟩
  rw [hcontest.tips_eq, hsurvivors]
  decide +kernel

end

end PlantGrowth.Assignment
