import PlantGrowth.Proofs.Planting.Obstacles

/-!
# Keys of plants

The key of a plant ends in the digits of its stage, and a hyphen stands before them. Identifiers may
hold hyphens and digits anywhere; but no digit is a hyphen, so what stands behind the last hyphen is the
stage and what stands before it is the identifier. So no two plants of a stage that is not below zero
have the same key unless both their identifiers and their stages are the same
(`growth_keys_are_distinct`).
-/

set_option autoImplicit false

namespace PlantGrowth

namespace Text

/-- What stands behind the last separator of a text. -/
def lastPart (separator : Char) (text : List Char) : List Char :=
  (text.reverse.takeWhile (· ≠ separator)).reverse

/-- What stands behind the last separator is the last part. -/
theorem lastPart_append_cons {separator : Char} (front : List Char) {back : List Char}
    (h : separator ∉ back) : lastPart separator (front ++ separator :: back) = back := by
  have hback : ∀ c ∈ back.reverse, decide (c ≠ separator) = true := by
    intro c hc
    refine decide_eq_true ?_
    rintro rfl
    exact h (List.mem_reverse.1 hc)
  have hreverse : (front ++ separator :: back).reverse =
      back.reverse ++ separator :: front.reverse := by simp
  rw [lastPart, hreverse, List.takeWhile_append_of_pos hback, List.takeWhile_cons_of_neg (by simp),
    List.append_nil, List.reverse_reverse]

/-- The last separator parts a text in one way. -/
theorem append_cons_eq_iff {separator : Char} {front front' back back' : List Char}
    (h : separator ∉ back) (h' : separator ∉ back') :
    front ++ separator :: back = front' ++ separator :: back' ↔ front = front' ∧ back = back' := by
  constructor
  · intro heq
    have hback : back = back' := by
      rw [← lastPart_append_cons front h, heq, lastPart_append_cons front' h']
    subst hback
    exact ⟨List.append_cancel_right heq, rfl⟩
  · rintro ⟨rfl, rfl⟩
    rfl

/-- A number that is not below zero is written without a hyphen. -/
theorem hyphen_notMem_repr {n : Int} (hn : 0 ≤ n) : '-' ∉ n.repr.toList := by
  rw [Int.repr_eq_if, if_pos hn, Nat.toList_repr]
  intro hmem
  have hdigit := Nat.isDigit_of_mem_toDigits (by decide) le_rfl hmem
  revert hdigit
  decide

end Text

/-- For stages that are not negative a growth key tells the identifier and the stage. -/
theorem growthKey_eq_iff {id id' : String} {stage stage' : Int} (h : 0 ≤ stage) (h' : 0 ≤ stage') :
    growthKey id stage = growthKey id' stage' ↔ id = id' ∧ stage = stage' := by
  have hparts (id : String) (stage : Int) :
      (growthKey id stage).toList = id.toList ++ '-' :: stage.repr.toList := by
    simp [growthKey]
  rw [← String.toList_inj, hparts, hparts,
    Text.append_cons_eq_iff (Text.hyphen_notMem_repr h) (Text.hyphen_notMem_repr h'),
    String.toList_inj, String.toList_inj, Int.repr_inj]

namespace Catalogue

variable {α : Type} [Scalar α]

/-- The plant of a memory, grown to a stage that bounding leaves where it is, is grown from the draws
of this key. -/
def GrownFromKey (catalogue : Catalogue α) (memory : Memory) (key : String) (stage : Int)
    (plant : Plant α) : Prop :=
  ∃ species : Species, memory.species = species.name ∧
    catalogue.boundedStage species stage = .ok stage ∧
    (((catalogue species).grow stage none).run (.keyed key) 0).1 = .ok plant

end Catalogue

/-- Keys do not collide. Whatever characters two identifiers hold, their keys at stages that are not
below zero are the same text only if the identifiers are the same and the stages are the same. So
memories that were grown to positive stages, of whatever species and catalogues, were grown from
different key texts if their identifiers differ or their stages do. -/
theorem growth_keys_are_distinct {α : Type} [Scalar α] :
    (∀ (id id' : String) (stage stage' : Int), 0 ≤ stage → 0 ≤ stage' →
      (growthKey id stage = growthKey id' stage' ↔ id = id' ∧ stage = stage')) ∧
    (∀ (catalogue catalogue' : Catalogue α) (memory memory' : Memory) (stage stage' : Stage α)
      (t t' : Int) (plant plant' : Plant α),
      catalogue.growMemory memory stage = .ok (t, plant) →
      catalogue'.growMemory memory' stage' = .ok (t', plant') → 0 < t → 0 < t' →
        catalogue.GrownFromKey memory (growthKey memory.id t) t plant ∧
        catalogue'.GrownFromKey memory' (growthKey memory'.id t') t' plant' ∧
        ((memory.id, t) ≠ (memory'.id, t') → growthKey memory.id t ≠ growthKey memory'.id t')) := by
  refine ⟨fun id id' stage stage' => growthKey_eq_iff, ?_⟩
  intro catalogue catalogue' memory memory' stage stage' t t' plant plant' hgrown hgrown' ht ht'
  refine ⟨Catalogue.exists_species_of_growMemory hgrown,
    Catalogue.exists_species_of_growMemory hgrown', ?_⟩
  intro hne hkey
  obtain ⟨hid, hstage⟩ := (growthKey_eq_iff ht.le ht'.le).1 hkey
  exact hne (Prod.ext hid hstage)

/-- Below zero a hyphen belongs to the stage, and keys do collide. -/
example : growthKey "moss" (-2) = growthKey "moss-" 2 := by decide

/-- A flower and a vine, of which one has an identifier that looks like a key of the other. -/
theorem growth_keys_are_distinct_moss :
    growthKey "moss-2" 4 ≠ growthKey "moss" 24 ∧
    ∃ plant plant',
      Catalogue.builtIn.growMemory ⟨"moss-2", "flower", "low", none⟩ (.whole 99) = .ok (4, plant) ∧
      Catalogue.builtIn.growMemory ⟨"moss", "vine", "high", none⟩ (.whole 99) = .ok (8, plant') ∧
      growthKey "moss-2" 4 ≠ growthKey "moss" 8 := by
  obtain ⟨hkeys, hplants⟩ := growth_keys_are_distinct (α := Float)
  have hflower : Catalogue.builtIn.greatestStage .flower = .ok 4 := rfl
  have hvine : Catalogue.builtIn.greatestStage .vine = .ok 8 := Catalogue.vineStages_fortyFive
  have hninetyNine : (Stage.whole 99 : Stage Float).toInteger = .ok 99 := rfl
  obtain ⟨plant, hplant⟩ : ∃ plant, Catalogue.builtIn.growMemory
      ⟨"moss-2", "flower", "low", none⟩ (.whole 99) = .ok (4, plant) :=
    Catalogue.exists_growMemory_builtIn hflower rfl rfl hninetyNine
  obtain ⟨plant', hplant'⟩ : ∃ plant, Catalogue.builtIn.growMemory
      ⟨"moss", "vine", "high", none⟩ (.whole 99) = .ok (8, plant) :=
    Catalogue.exists_growMemory_builtIn hvine rfl rfl hninetyNine
  have hfar := (hkeys "moss-2" "moss" 4 24 (by decide) (by decide)).not
  refine ⟨hfar.2 (by decide), plant, plant', hplant, hplant', ?_⟩
  exact (hplants Catalogue.builtIn Catalogue.builtIn _ _ _ _ 4 8 plant plant' hplant hplant'
    (by decide) (by decide)).2.2 (by decide)

end PlantGrowth
