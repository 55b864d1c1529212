import PlantGrowth.Vine.Growth

/-!
# The stem of a vine

Growth is written for any number of active tips, but a vine starts from one tip, and a round of
competition for one tip pulls at no other (`assign_singleton`). Every step therefore ends with the
newest node as the only active tip, and the trail of a vine is its `stem`: a recursion on the newest
node and the attractors that are left (`trail_eq_stem`).
-/

set_option autoImplicit false

namespace PlantGrowth

variable {α : Type} [Scalar α]

/-! ## The round of a lone tip -/

namespace Reach

/-- Whether an attractor is consumed by a tip at a point. -/
def consumes (reach : Reach α) (point attractor : Vec3 α) : Bool :=
  attractor.distanceSq point < reach.killSq

/-- Whether an attractor pulls a lone tip at a point: it is not consumed, and within a finite
distance that the influence radius covers. -/
def steers (reach : Reach α) (point attractor : Vec3 α) : Bool :=
  !reach.consumes point attractor && attractor.distanceSq point ≤ reach.influenceSq &&
    Scalar.isFinite (attractor.distanceSq point)

/-- The pulls on a lone tip at a point, each of length one, in the order of the attractors. -/
def unitPulls (reach : Reach α) (point : Vec3 α) (attractors : List (Vec3 α)) :
    Except Fault (List (Vec3 α)) :=
  (attractors.filter (reach.steers point)).mapM fun attractor => (attractor - point).normalize

/-- The attractors that a point does not consume. -/
def survivors (reach : Reach α) (point : Vec3 α) (attractors : List (Vec3 α)) : List (Vec3 α) :=
  attractors.filter fun attractor => !reach.consumes point attractor

/-- What pulls a tip is within the influence radius. -/
theorem distanceSq_le_of_steers {reach : Reach α} {point attractor : Vec3 α}
    (h : reach.steers point attractor) : attractor.distanceSq point ≤ reach.influenceSq := by
  simp only [steers, Bool.and_eq_true, decide_eq_true_eq] at h
  exact h.1.2

/-- An attractor that is consumed does not survive. -/
theorem survivors_cons_of_consumes {reach : Reach α} {point attractor : Vec3 α}
    (h : reach.consumes point attractor) (others : List (Vec3 α)) :
    reach.survivors point (attractor :: others) = reach.survivors point others := by
  simp [survivors, h]

/-- An attractor that is not consumed survives. -/
theorem survivors_cons_of_not_consumes {reach : Reach α} {point attractor : Vec3 α}
    (h : ¬ reach.consumes point attractor) (others : List (Vec3 α)) :
    reach.survivors point (attractor :: others) =
      attractor :: reach.survivors point others := by
  simp [survivors, h]

/-- An attractor that steers pulls along its direction. -/
theorem unitPulls_cons_of_steers {reach : Reach α} {point attractor : Vec3 α}
    (h : reach.steers point attractor) (others : List (Vec3 α)) :
    reach.unitPulls point (attractor :: others) = do
      let pull ← (attractor - point).normalize
      let pulls ← reach.unitPulls point others
      return pull :: pulls := by
  simp [unitPulls, h]

/-- An attractor that does not steer does not pull. -/
theorem unitPulls_cons_of_not_steers {reach : Reach α} {point attractor : Vec3 α}
    (h : ¬ reach.steers point attractor) (others : List (Vec3 α)) :
    reach.unitPulls point (attractor :: others) = reach.unitPulls point others := by
  simp [unitPulls, h]

/-- What is consumed does not steer. -/
theorem not_steers_of_consumes {reach : Reach α} {point attractor : Vec3 α}
    (h : reach.consumes point attractor) : ¬ reach.steers point attractor := by
  simp [steers, h]

end Reach

namespace Assignment

/-- The pulls of a round on one tip: none, or the tip with their sum from the zero vector. -/
def pullsOn (tip : Nat) : List (Vec3 α) → List (Nat × Vec3 α)
  | [] => []
  | pull :: others => [(tip, (pull :: others).foldl (· + ·) Vec3.origin)]

/-- The search among a single tip ends with it, if it is in reach. -/
theorem seek_singleton (reach : Reach α) {nodes : Array (Node α)} {tip : Nat} {node : Node α}
    (h : nodes[tip]? = some node) (attractor : Vec3 α) :
    seek reach nodes attractor none [tip] =
      .ok (if reach.consumes node.position attractor then .reached
        else .nearest (if reach.steers node.position attractor then some tip else none)) := by
  have hnode : nodeAt nodes tip = .ok node := nodeAt_eq_ok_iff.2 h
  simp only [seek, hnode, isNearer, Reach.steers, Reach.consumes, bind, Except.bind]
  by_cases hkill : attractor.distanceSq node.position < reach.killSq
  · simp [hkill]
  · by_cases hpull : attractor.distanceSq node.position ≤ reach.influenceSq ∧
        Scalar.isFinite (attractor.distanceSq node.position) = true
    · simp [hkill, hpull]
    · simp [hkill, hpull]

/-- A single tip decides the fate of an attractor. -/
theorem fate_singleton (reach : Reach α) {nodes : Array (Node α)} {tip : Nat} {node : Node α}
    (h : nodes[tip]? = some node) (attractor : Vec3 α) :
    fate reach nodes [tip] attractor =
      if reach.consumes node.position attractor then pure .consumed
      else if reach.steers node.position attractor then
        Fate.pulling tip <$> (attractor - node.position).normalize
      else pure .idle := by
  have hnode : nodeAt nodes tip = .ok node := nodeAt_eq_ok_iff.2 h
  rw [fate, seek_singleton reach h]
  by_cases hkill : reach.consumes node.position attractor
  · rw [if_pos hkill, if_pos hkill]
    rfl
  · rw [if_neg hkill, if_neg hkill]
    by_cases hpull : reach.steers node.position attractor
    · rw [if_pos hpull, if_pos hpull]
      show (nodeAt nodes tip >>= fun node => _) = _
      rw [hnode]
      rfl
    · rw [if_neg hpull, if_neg hpull]
      rfl

/-- All pulls on a single tip are added up. -/
theorem foldl_addPull_singleton (tip : Nat) (sum : Vec3 α) (units : List (Vec3 α)) :
    units.foldl (fun pulls pull => addPull tip pull pulls) [(tip, sum)] =
      [(tip, units.foldl (· + ·) sum)] := by
  induction units generalizing sum with
  | nil => rfl
  | cons pull others ih =>
    rw [List.foldl_cons, List.foldl_cons, ← ih]
    simp [addPull]

/-- The pulls on a single tip are its only pull, if there are any. -/
theorem foldl_addPull_nil (tip : Nat) (units : List (Vec3 α)) :
    units.foldl (fun pulls pull => addPull tip pull pulls) [] = pullsOn tip units := by
  cases units with
  | nil => rfl
  | cons pull others => exact foldl_addPull_singleton tip (Vec3.origin + pull) others

/-- The fates of attractors at a lone tip, told as the pulls that they add to given ones and the
attractors that they leave. -/
theorem mapM_fate_singleton (reach : Reach α) {nodes : Array (Node α)} {tip : Nat} {node : Node α}
    (h : nodes[tip]? = some node) (attractors : List (Vec3 α)) (pulls : List (Nat × Vec3 α)) :
    (do
      let fates ← attractors.mapM fun attractor => do
        let f ← fate reach nodes [tip] attractor
        return (attractor, f)
      return ((fates.map Prod.snd).foldl collect pulls, (ofFates fates).survivors)) =
    (do
      let units ← reach.unitPulls node.position attractors
      return (units.foldl (fun pulls pull => addPull tip pull pulls) pulls,
        reach.survivors node.position attractors)) := by
  induction attractors generalizing pulls with
  | nil => rfl
  | cons attractor others ih =>
    simp only [List.mapM_cons, bind_assoc, pure_bind]
    rw [fate_singleton reach h attractor]
    by_cases hkill : reach.consumes node.position attractor
    · rw [if_pos hkill, pure_bind, Reach.survivors_cons_of_consumes hkill,
        Reach.unitPulls_cons_of_not_steers (Reach.not_steers_of_consumes hkill)]
      exact ih pulls
    · -- What is not consumed is put before the survivors among the others.
      have hkept (pulls : List (Nat × Vec3 α)) :=
        congrArg (fun round => (fun r => (r.1, attractor :: r.2)) <$> round) (ih pulls)
      simp only [map_bind, map_pure] at hkept
      rw [if_neg hkill, Reach.survivors_cons_of_not_consumes hkill]
      by_cases hpull : reach.steers node.position attractor
      · rw [if_pos hpull, Reach.unitPulls_cons_of_steers hpull]
        cases (attractor - node.position).normalize with
        | error e => rfl
        | ok pull =>
          simp only [bind_assoc, pure_bind]
          exact hkept (addPull tip pull pulls)
      · rw [if_neg hpull, pure_bind, Reach.unitPulls_cons_of_not_steers hpull]
        exact hkept pulls

/-- A round for a lone tip pulls at no other tip. -/
theorem assign_singleton (reach : Reach α) {nodes : Array (Node α)} {tip : Nat} {node : Node α}
    (h : nodes[tip]? = some node) (attractors : List (Vec3 α)) :
    assign reach nodes [tip] attractors = do
      let units ← reach.unitPulls node.position attractors
      return ⟨pullsOn tip units, reach.survivors node.position attractors⟩ := by
  have hround := congrArg (fun round => (fun r => Assignment.mk r.1 r.2) <$> round)
    (mapM_fate_singleton reach h attractors [])
  simp only [map_bind, map_pure, foldl_addPull_nil] at hround
  exact hround

end Assignment

/-! ## Growth from the newest node -/

namespace ColonizationPreset

open Assignment

/-- The trail that grows from a tip in at most that many steps, where the tip is the only one: each
step pulls at the newest node and grows the next one. -/
def stem (preset : ColonizationPreset α) (reach : Reach α) :
    Nat → Node α → List (Vec3 α) → Trail α
  | 0, _, _ => ⟨[], none⟩
  | steps + 1, tip, attractors =>
    match reach.unitPulls tip.position attractors with
    | .error e => ⟨[], some e⟩
    | .ok [] => ⟨[], none⟩
    | .ok (pull :: others) =>
      match preset.sprout tip ((pull :: others).foldl (· + ·) Vec3.origin) with
      | .error e => ⟨[], some e⟩
      | .ok new =>
        let rest := preset.stem reach steps new (reach.survivors tip.position attractors)
        ⟨⟨tip.position, new.position, new.radius⟩ :: rest.segments, rest.fault⟩

/-- Where nothing steers the tip, a stem ends. -/
theorem stem_of_forall_not_steers (preset : ColonizationPreset α) {reach : Reach α}
    (steps : Nat) {tip : Node α} {attractors : List (Vec3 α)}
    (h : ∀ attractor ∈ attractors, ¬ reach.steers tip.position attractor) :
    preset.stem reach steps tip attractors = ⟨[], none⟩ := by
  cases steps with
  | zero => rfl
  | succ steps =>
    have hpulls : reach.unitPulls tip.position attractors = .ok [] := by
      rw [Reach.unitPulls, List.filter_eq_nil_iff.2 h]
      rfl
    rw [stem, hpulls]

/-- A single pull grows one segment. -/
theorem extend_singleton (preset : ColonizationPreset α) {nodes : Array (Node α)} {tip : Nat}
    {node : Node α} (h : nodes[tip]? = some node) (pull : Vec3 α) :
    preset.extend nodes [(tip, pull)] =
      match preset.sprout node pull with
      | .error e => ([], .error e)
      | .ok new => ([⟨node.position, new.position, new.radius⟩], .ok (nodes.push new)) := by
  have hnode : nodeAt nodes tip = .ok node := nodeAt_eq_ok_iff.2 h
  simp only [extend, sproutAt, hnode, bind, Except.bind]
  cases preset.sprout node pull with
  | error e => rfl
  | ok new => rfl

/-- The trail of a vine with one active tip is the stem that grows from this tip. The new node is the
only tip of the next step, whatever the nodes before it. -/
theorem trail_eq_stem (preset : ColonizationPreset α) (reach : Reach α) (steps : Nat)
    {nodes : Array (Node α)} {tip : Nat} {node : Node α} (h : nodes[tip]? = some node)
    (attractors : List (Vec3 α)) :
    preset.trail reach steps ⟨nodes, [tip], attractors⟩ =
      preset.stem reach steps node attractors := by
  induction steps generalizing nodes tip node attractors with
  | zero => rfl
  | succ steps ih =>
    rw [trail, stem, assign_singleton reach h]
    cases attractors with
    | nil => rfl
    | cons attractor others =>
      cases reach.unitPulls node.position (attractor :: others) with
      | error e => rfl
      | ok units =>
        cases units with
        | nil => rfl
        | cons pull pulls =>
          have hgrown := preset.extend_singleton h ((pull :: pulls).foldl (· + ·) Vec3.origin)
          simp only [List.isEmpty_cons, Bool.or_self, Bool.false_eq_true, if_false, bind,
            Except.bind, pure, Except.pure, pullsOn, hgrown]
          cases preset.sprout node ((pull :: pulls).foldl (· + ·) Vec3.origin) with
          | error e => rfl
          | ok new =>
            have hnew : (nodes.push new)[nodes.size]? = some new := by simp
            simp only [List.length_singleton, List.range'_one, ih hnew, List.singleton_append]

/-- The root of a vine. -/
def root (preset : ColonizationPreset α) : Node α := ⟨Vec3.origin, 0, preset.baseRadius⟩

/-- The trail of a vine is the stem that grows from its root. -/
theorem trailAt_eq_stem (preset : ColonizationPreset α) (reach : Reach α) (stage : Int)
    (attractors : List (Vec3 α)) :
    preset.trailAt reach stage attractors =
      preset.stem reach (stepBudget stage).toNat preset.root attractors :=
  preset.trail_eq_stem reach _ rfl attractors

end ColonizationPreset

end PlantGrowth
