import PlantGrowth.Proofs.Scalar.Order
import PlantGrowth.Proofs.Scalar.Truncation
import PlantGrowth.Vine.Assignment

/-!
# The vote of an attractor

The tip that an attractor pulls, told without a search: the earliest of the nearest tips in reach
(`vote`). The search keeps the nearest tip of those seen so far (`Leads`); one more tip does not change
that (`Leads.nearer`), so it holds of all tips (`leads_foldl`) and the search ends with the vote
(`seek_eq`, `Leads.vote_eq`), whatever the doubles are: a tip at an undefined or infinite distance is out
of reach. The order of the tips does not matter for an attractor without a tie (`vote_perm`).
-/

set_option autoImplicit false

namespace PlantGrowth.Assignment

/-! ## Votes -/

section

variable {α : Type} [Scalar α] (reach : Reach α) (nodes : Array (Node α)) (tips : List Nat)
  (attractor : Vec3 α)

/-- The place of a tip; the origin, if there is no such node. -/
def placeOf (tip : Nat) : Vec3 α := (nodes[tip]?.map Node.position).getD Vec3.origin

/-- The square of the distance between an attractor and a tip. -/
def gap (tip : Nat) : α := attractor.distanceSq (placeOf nodes tip)

/-- Some tip is near enough to consume the attractor. -/
def IsConsumed : Prop := ∃ tip ∈ tips, gap nodes attractor tip < reach.killSq

/-- The tip is at a finite distance that the influence radius covers. -/
def InReach (tip : Nat) : Prop :=
  gap nodes attractor tip ≤ reach.influenceSq ∧ Scalar.isFinite (gap nodes attractor tip) = true

/-- The tip is in reach, and no other tip in reach is nearer. -/
def IsNearest (tip : Nat) : Prop :=
  InReach reach nodes attractor tip ∧ ∀ other ∈ tips, InReach reach nodes attractor other →
    ¬ gap nodes attractor other < gap nodes attractor tip

/-- Two different tips are equally near. -/
def IsTied : Prop := ∃ tip ∈ tips, ∃ other ∈ tips,
  tip ≠ other ∧ (gap nodes attractor tip == gap nodes attractor other) = true

instance : Decidable (IsConsumed reach nodes tips attractor) :=
  inferInstanceAs (Decidable (∃ tip ∈ tips, _))

instance : Decidable (IsTied nodes tips attractor) :=
  inferInstanceAs (Decidable (∃ tip ∈ tips, ∃ other ∈ tips, _))

instance (tip : Nat) : Decidable (InReach reach nodes attractor tip) :=
  inferInstanceAs (Decidable (_ ∧ _))

instance (tip : Nat) : Decidable (IsNearest reach nodes tips attractor tip) :=
  inferInstanceAs (Decidable (_ ∧ ∀ other ∈ tips, _))

/-- The tip that an attractor votes for: the earliest of the nearest ones. -/
def vote : Option Nat := tips.find? fun tip => IsNearest reach nodes tips attractor tip

/-! ## The search -/

variable {reach nodes tips attractor}

/-- The index of a node stands for a node at its place. -/
theorem nodeAt_of_lt {tip : Nat} (htip : tip < nodes.size) :
    ∃ node, nodeAt nodes tip = .ok node ∧ node.position = placeOf nodes tip := by
  have hnode : nodes[tip]? = some nodes[tip] := Array.getElem?_eq_getElem htip
  refine ⟨nodes[tip], nodeAt_eq_ok_iff.2 hnode, ?_⟩
  rw [placeOf, hnode]
  rfl

variable (reach nodes attractor)

/-- The nearest tip in reach after one more tip was looked at. -/
def nearer (nearest : Option (Nat × α)) (tip : Nat) : Option (Nat × α) :=
  if gap nodes attractor tip ≤ reach.influenceSq ∧ isNearer (gap nodes attractor tip) nearest then
    some (tip, gap nodes attractor tip)
  else nearest

/-- A search that consumes the attractor forgets the nearest tip; any other one ends with it. -/
theorem seek_eq {tips : List Nat} (htips : ∀ tip ∈ tips, tip < nodes.size)
    (nearest : Option (Nat × α)) :
    seek reach nodes attractor nearest tips =
      .ok (if IsConsumed reach nodes tips attractor then .reached
        else .nearest ((tips.foldl (nearer reach nodes attractor) nearest).map Prod.fst)) := by
  induction tips generalizing nearest with
  | nil =>
    have hspared : ¬ IsConsumed reach nodes [] attractor := by simp [IsConsumed]
    rw [if_neg hspared]
    rfl
  | cons tip others ih =>
    obtain ⟨node, hnode, hplace⟩ := nodeAt_of_lt (htips tip List.mem_cons_self)
    have ih := ih fun other hother => htips other (List.mem_cons_of_mem tip hother)
    have hgap : attractor.distanceSq node.position = gap nodes attractor tip := by
      rw [hplace, gap]
    have hconsumed : IsConsumed reach nodes (tip :: others) attractor ↔
        gap nodes attractor tip < reach.killSq ∨ IsConsumed reach nodes others attractor := by
      simp only [IsConsumed, List.exists_mem_cons_iff]
    have hstep : seek reach nodes attractor nearest (tip :: others) =
        if gap nodes attractor tip < reach.killSq then .ok .reached
        else seek reach nodes attractor (nearer reach nodes attractor nearest tip) others := by
      simp only [seek, hnode, hgap, bind, Except.bind, nearer]
      split
      · rfl
      · split <;> rfl
    rw [hstep, ih, List.foldl_cons]
    by_cases hkill : gap nodes attractor tip < reach.killSq
    · rw [if_pos hkill, if_pos (hconsumed.2 (.inl hkill))]
    · have hothers := hconsumed.trans (or_iff_right hkill)
      rw [if_neg hkill]
      simp only [hothers]

end

/-! ## The nearest tip -/

section

variable {reach : Reach Float} {nodes : Array (Node Float)} {tips : List Nat}
  {attractor : Vec3 Float}

/-- Of two tips in reach only one can be nearer. -/
theorem not_lt_of_lt {tip other : Nat} (htip : InReach reach nodes attractor tip)
    (hother : InReach reach nodes attractor other)
    (hlt : gap nodes attractor tip < gap nodes attractor other) :
    ¬ gap nodes attractor other < gap nodes attractor tip := by
  obtain ⟨d, hd⟩ := Double.exists_value_of_isFinite htip.2
  obtain ⟨far, hfar⟩ := Double.exists_value_of_isFinite hother.2
  rw [Double.lt_iff_of_values hd hfar] at hlt
  rw [Double.lt_iff_of_values hfar hd]
  exact lt_asymm hlt

/-- A tip that is nearer than the leader is nearer than what the leader keeps away. -/
theorem lt_of_lt_of_not_lt {tip leader other : Nat} (htip : InReach reach nodes attractor tip)
    (hleader : InReach reach nodes attractor leader) (hother : InReach reach nodes attractor other)
    (hlt : gap nodes attractor tip < gap nodes attractor leader)
    (hle : ¬ gap nodes attractor other < gap nodes attractor leader) :
    gap nodes attractor tip < gap nodes attractor other := by
  obtain ⟨d, hd⟩ := Double.exists_value_of_isFinite htip.2
  obtain ⟨least, hleast⟩ := Double.exists_value_of_isFinite hleader.2
  obtain ⟨far, hfar⟩ := Double.exists_value_of_isFinite hother.2
  rw [Double.lt_iff_of_values hd hleast] at hlt
  rw [Double.lt_iff_of_values hfar hleast] at hle
  rw [Double.lt_iff_of_values hd hfar]
  exact hlt.trans_le (not_lt.1 hle)

/-- What is nearer than a tip in reach is at a finite distance. -/
theorem inReach_of_lt {tip leader : Nat} (hleader : InReach reach nodes attractor leader)
    (hle : gap nodes attractor tip ≤ reach.influenceSq)
    (hlt : gap nodes attractor tip < gap nodes attractor leader) :
    InReach reach nodes attractor tip := by
  obtain ⟨least, hleast⟩ := Double.exists_value_of_isFinite hleader.2
  obtain ⟨d, hd⟩ := Double.exists_value_of_lt (Double.isNonneg_sum_of_squares _ _ _) hleast hlt
  exact ⟨hle, Double.isFinite_of_value hd⟩

variable (reach nodes attractor)

/-- The nearest tip of those seen so far, and the earliest such tip. -/
inductive Leads (seen : List Nat) : Option (Nat × Float) → Prop
  | nobody (hnone : ∀ tip ∈ seen, ¬ InReach reach nodes attractor tip) : Leads seen none
  | leader (front back : List Nat) (tip : Nat) (hseen : seen = front ++ tip :: back)
      (hnearest : IsNearest reach nodes seen attractor tip)
      (hfront : ∀ other ∈ front, InReach reach nodes attractor other →
        gap nodes attractor tip < gap nodes attractor other) :
      Leads seen (some (tip, gap nodes attractor tip))

variable {reach nodes attractor}

/-- A tip leads that is nearer than every tip in reach before it. -/
theorem Leads.of_nearer {seen : List Nat} {tip : Nat} (htip : InReach reach nodes attractor tip)
    (hfront : ∀ other ∈ seen, InReach reach nodes attractor other →
      gap nodes attractor tip < gap nodes attractor other) :
    Leads reach nodes attractor (seen ++ [tip]) (some (tip, gap nodes attractor tip)) := by
  refine .leader seen [] tip rfl ⟨htip, List.forall_mem_append.2 ⟨?_, ?_⟩⟩ hfront
  · exact fun other hother hin => not_lt_of_lt htip hin (hfront other hother hin)
  · exact List.forall_mem_singleton.2 fun _ hlt => not_lt_of_lt htip htip hlt hlt

/-- One more tip leads if it is nearer than the leader, or the first one in reach. -/
theorem Leads.nearer {seen : List Nat} {nearest : Option (Nat × Float)}
    (h : Leads reach nodes attractor seen nearest) (tip : Nat) :
    Leads reach nodes attractor (seen ++ [tip])
      (Assignment.nearer reach nodes attractor nearest tip) := by
  rw [Assignment.nearer]
  cases h with
  | nobody hnone =>
    split
    · next hreach => exact .of_nearer hreach fun other hother hin => absurd hin (hnone other hother)
    · next hfar =>
      exact .nobody (List.forall_mem_append.2 ⟨hnone, List.forall_mem_singleton.2 hfar⟩)
  | leader front back leader hseen hnearest hfront =>
    obtain ⟨hleader, hleast⟩ := hnearest
    split
    · next hcloser =>
      obtain ⟨hle, hlt⟩ := hcloser
      have hlt : gap nodes attractor tip < gap nodes attractor leader := of_decide_eq_true hlt
      have htip := inReach_of_lt hleader hle hlt
      exact .of_nearer htip fun other hother hin =>
        lt_of_lt_of_not_lt htip hleader hin hlt (hleast other hother hin)
    · next hfar =>
      refine .leader front (back ++ [tip]) leader ?_ ⟨hleader, ?_⟩ hfront
      · rw [hseen, List.append_assoc, List.cons_append]
      · refine List.forall_mem_append.2 ⟨hleast, List.forall_mem_singleton.2 ?_⟩
        exact fun hin hlt => hfar ⟨hin.1, decide_eq_true hlt⟩

/-- The search leads to the first of the nearest tips. -/
theorem leads_foldl (tips : List Nat) :
    Leads reach nodes attractor tips (tips.foldl (Assignment.nearer reach nodes attractor) none) := by
  induction tips using List.reverseRecOn with
  | nil => exact .nobody fun tip htip => absurd htip List.not_mem_nil
  | append_singleton tips tip ih =>
    rw [List.foldl_append]
    exact ih.nearer tip

/-- The leader of all tips has the vote. -/
theorem Leads.vote_eq {nearest : Option (Nat × Float)}
    (h : Leads reach nodes attractor tips nearest) :
    vote reach nodes tips attractor = nearest.map Prod.fst := by
  cases h with
  | nobody hnone =>
    refine List.find?_eq_none.2 fun tip htip hnearest => ?_
    exact hnone tip htip (of_decide_eq_true hnearest).1
  | leader front back tip hseen hnearest hfront =>
    refine List.find?_eq_some_iff_append.2 ⟨decide_eq_true hnearest, front, back, hseen, ?_⟩
    intro other hother
    have htip : tip ∈ tips := by simp [hseen]
    rw [Bool.not_eq_true', decide_eq_false_iff_not]
    rintro ⟨hin, hleast⟩
    exact hleast tip htip hnearest.1 (hfront other hother hin)

/-- Who has a tip in reach votes. -/
theorem vote_eq_none_iff :
    vote reach nodes tips attractor = none ↔ ∀ tip ∈ tips, ¬ InReach reach nodes attractor tip := by
  constructor
  · intro hnone
    have hleads : Leads reach nodes attractor tips _ := leads_foldl tips
    rw [hleads.vote_eq, Option.map_eq_none_iff] at hnone
    rw [hnone] at hleads
    cases hleads with
    | nobody hnone => exact hnone
  · exact fun hnone => (Leads.nobody hnone).vote_eq

/-- Only tips are voted for. -/
theorem mem_of_vote {tip : Nat} (h : vote reach nodes tips attractor = some tip) : tip ∈ tips :=
  List.mem_of_find?_eq_some h

/-- Only nearest tips are voted for. -/
theorem isNearest_of_vote {tip : Nat} (h : vote reach nodes tips attractor = some tip) :
    IsNearest reach nodes tips attractor tip := by
  have hdecide := List.find?_some h
  exact of_decide_eq_true hdecide

/-! ## The order of the tips -/

variable {others : List Nat}

/-- Whether an attractor is consumed does not depend on the order of the tips. -/
theorem isConsumed_perm (h : others.Perm tips) :
    IsConsumed reach nodes others attractor ↔ IsConsumed reach nodes tips attractor := by
  simp only [IsConsumed, h.mem_iff]

/-- Which tips are nearest does not depend on their order. -/
theorem isNearest_perm (h : others.Perm tips) {tip : Nat} :
    IsNearest reach nodes others attractor tip ↔ IsNearest reach nodes tips attractor tip := by
  simp only [IsNearest, h.mem_iff]

/-- Without a tie only one tip is nearest. -/
theorem IsNearest.unique (huntied : ¬ IsTied nodes tips attractor) {tip other : Nat}
    (htip : tip ∈ tips) (hother : other ∈ tips) (h : IsNearest reach nodes tips attractor tip)
    (h' : IsNearest reach nodes tips attractor other) : tip = other := by
  by_contra hne
  obtain ⟨d, hd⟩ := Double.exists_value_of_isFinite h.1.2
  obtain ⟨e, he⟩ := Double.exists_value_of_isFinite h'.1.2
  have hle := h.2 other hother h'.1
  have hle' := h'.2 tip htip h.1
  rw [Double.lt_iff_of_values he hd, not_lt] at hle
  rw [Double.lt_iff_of_values hd he, not_lt] at hle'
  have heq := (Double.beq_iff_of_values hd he).2 (le_antisymm hle hle')
  exact huntied ⟨tip, htip, other, hother, hne, heq⟩

/-- Without a tie the vote does not depend on the order of the tips. -/
theorem vote_perm (h : others.Perm tips) (huntied : ¬ IsTied nodes tips attractor) :
    vote reach nodes others attractor = vote reach nodes tips attractor := by
  cases hvote : vote reach nodes tips attractor with
  | none =>
    refine List.find?_eq_none.2 fun tip htip hnearest => ?_
    have hnone := List.find?_eq_none.1 hvote tip (h.mem_iff.1 htip)
    exact hnone (decide_eq_true ((isNearest_perm h).1 (of_decide_eq_true hnearest)))
  | some tip =>
    have htip := mem_of_vote hvote
    have hnearest := isNearest_of_vote hvote
    cases hother : vote reach nodes others attractor with
    | none =>
      have hnone := List.find?_eq_none.1 hother tip (h.mem_iff.2 htip)
      exact absurd (decide_eq_true ((isNearest_perm h).2 hnearest)) hnone
    | some other =>
      have hmem := h.mem_iff.1 (mem_of_vote hother)
      have hnearest' := (isNearest_perm h).1 (isNearest_of_vote hother)
      rw [IsNearest.unique huntied hmem htip hnearest' hnearest]

end

end PlantGrowth.Assignment
