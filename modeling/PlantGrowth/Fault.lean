import PlantGrowth.Text.Quoted

/-!
# Faults

What can go wrong while a plant is described or grown, by cause, and the wording of each cause.
-/

set_option autoImplicit false

namespace PlantGrowth

/-- The causes for which an operation gives no result. -/
inductive Fault where
  /-- The square of a finite number is too large for a number. -/
  | squareTooLarge
  /-- The sine or cosine of an infinite angle is asked for. -/
  | angleInfinite
  /-- An integer is asked for where the number is not a number. -/
  | integerOfNaN
  /-- An integer is asked for where the number is infinite. -/
  | integerOfInfinity
  /-- A stage is needed and none is given. -/
  | stageAbsent
  /-- The quotient of two integers is too large for a number. -/
  | quotientTooLarge
  /-- A position outside a list is asked for. -/
  | indexOutOfRange
  /-- A position is asked for that is too large for any list. -/
  | indexTooLarge
  /-- A draw is taken from a source that must not be used. -/
  | drawRefused
  /-- No species has this name. -/
  | unknownSpecies (name : String)
  /-- No importance has this name. -/
  | unknownImportance (name : String)
  /-- No generation method has this name. -/
  | unknownMethod (name : String)
  /-- The kill radius of a vine reaches its influence radius. -/
  | radiiOutOfOrder
  /-- A species grown from a grammar is given another kind of preset. -/
  | grammarPresetNeeded
  /-- A species grown toward attractors is given another kind of preset. -/
  | colonizationPresetNeeded
  /-- A number that is not finite is to be written, and JSON has no numeral for it. -/
  | numberNotWritable
  /-- Half of a character that stands alone is to be written, and no bytes stand for it. -/
  | textNotWritable
  deriving DecidableEq, Repr

/-- The wording of a fault. -/
def Fault.message : Fault → String
  | .squareTooLarge => "(34, 'Numerical result out of range')"
  | .angleInfinite => "math domain error"
  | .integerOfNaN => "cannot convert float NaN to integer"
  | .integerOfInfinity => "cannot convert float infinity to integer"
  | .stageAbsent =>
    "int() argument must be a string, a bytes-like object or a real number, not 'NoneType'"
  | .quotientTooLarge => "integer division result too large for a float"
  | .indexOutOfRange => "list index out of range"
  | .indexTooLarge => "cannot fit 'int' into an index-sized integer"
  | .drawRefused => "draw function should not be used"
  | .unknownSpecies name => Text.quoted name ++ " is not a valid SpeciesKey"
  | .unknownImportance name => Text.quoted name ++ " is not a valid MemoryImportance"
  | .unknownMethod name => Text.quoted name ++ " is not a valid GenerationMethod"
  | .radiiOutOfOrder => "kill_radius must be smaller than influence_radius"
  | .grammarPresetNeeded => "lsystem species need a LSystemPreset"
  | .colonizationPresetNeeded => "space species need a SpaceColonizationPreset"
  | .numberNotWritable => "Out of range float values are not JSON compliant"
  | .textNotWritable => "surrogates not allowed"

/-- A sequence has a result where both of its parts have one. -/
theorem Fault.bind_eq_ok_iff {β γ : Type} {m : Except Fault β} {f : β → Except Fault γ} {c : γ} :
    m >>= f = .ok c ↔ ∃ b, m = .ok b ∧ f b = .ok c := by
  constructor
  · intro h
    cases m with
    | error e => cases h
    | ok b => exact ⟨b, rfl, h⟩
  · rintro ⟨b, rfl, h⟩
    exact h

/-- Where all elements of a list have results, each of them has one among these. -/
theorem Fault.exists_of_mem_mapM {β γ : Type} {f : β → Except Fault γ} {xs : List β} {ys : List γ}
    (h : xs.mapM f = .ok ys) {x : β} (hx : x ∈ xs) : ∃ y ∈ ys, f x = .ok y := by
  induction xs generalizing ys with
  | nil => cases hx
  | cons first others ih =>
    rw [List.mapM_cons] at h
    obtain ⟨y, hy, h⟩ := Fault.bind_eq_ok_iff.1 h
    obtain ⟨rest, hrest, h⟩ := Fault.bind_eq_ok_iff.1 h
    cases h
    rcases List.mem_cons.1 hx with rfl | hx
    · exact ⟨y, List.mem_cons_self, hy⟩
    · obtain ⟨z, hz, hfz⟩ := ih hrest hx
      exact ⟨z, List.mem_cons_of_mem y hz, hfz⟩

/-- The fault of asking a list for a position that it does not have. Positions are signed words of
sixty-four bits. -/
def Fault.outside (position : Int) : Fault :=
  if -0x8000000000000000 ≤ position ∧ position < 0x8000000000000000 then .indexOutOfRange
  else .indexTooLarge

end PlantGrowth
