import PlantGrowth.Grammar.Preset
import PlantGrowth.Vine.Preset

/-!
# Species

The species of the garden, the two methods by which plants grow, and the catalogue that says what
each species grows from.
-/

set_option autoImplicit false

namespace PlantGrowth

/-- The species of the garden. -/
inductive Species where
  | fern
  | flower
  | vine
  deriving DecidableEq, Repr

namespace Species

/-- Every species, in the order of the garden's lists. -/
def all : List Species := [.fern, .flower, .vine]

/-- The name of a species. -/
def name : Species → String
  | .fern => "fern"
  | .flower => "flower"
  | .vine => "vine"

/-- The species of exactly this name. -/
def ofName? (text : String) : Option Species := all.find? (·.name == text)

/-- The species of a name; another text is a fault. -/
def named (text : String) : Except Fault Species :=
  match ofName? text with
  | some species => .ok species
  | none => .error (.unknownSpecies text)

/-- A text is the name of at most one species. -/
theorem named_eq_ok_iff {text : String} {species : Species} :
    named text = .ok species ↔ text = species.name := by
  constructor
  · intro h
    unfold named at h
    split at h
    · next s hs =>
      have := List.find?_some hs
      simp only [beq_iff_eq] at this
      cases h
      exact this.symm
    · cases h
  · rintro rfl
    cases species <;> rfl

/-- The name of a species names it. -/
@[simp] theorem named_name (species : Species) : named species.name = .ok species :=
  named_eq_ok_iff.2 rfl

end Species

/-- How a plant grows. -/
inductive Method where
  /-- From a grammar: a word is expanded and walked. -/
  | grammar
  /-- By colonizing the space among attractors. -/
  | colonization
  deriving DecidableEq, Repr

namespace Method

/-- The name of a method. -/
def name : Method → String
  | .grammar => "lsystem"
  | .colonization => "space"

/-- The method of a name; another text is a fault. -/
def named (text : String) : Except Fault Method :=
  match [Method.grammar, .colonization].find? (·.name == text) with
  | some method => .ok method
  | none => .error (.unknownMethod text)

end Method

/-- What a species grows from. -/
inductive Preset (α : Type) [Scalar α] where
  | grammar (preset : GrammarPreset α)
  | colonization (preset : ColonizationPreset α)

namespace Preset

variable {α : Type} [Scalar α]

/-- The method that a preset is for. -/
def method : Preset α → Method
  | .grammar _ => .grammar
  | .colonization _ => .colonization

/-- A preset under a method; it has to be a preset for that method. -/
def underMethod (method : Method) (preset : Preset α) : Except Fault (Preset α) :=
  if preset.method = method then .ok preset
  else match method with
    | .grammar => .error .grammarPresetNeeded
    | .colonization => .error .colonizationPresetNeeded

/-- A preset goes through under its own method. -/
@[simp] theorem underMethod_method (preset : Preset α) :
    underMethod preset.method preset = .ok preset := by
  simp [underMethod]

end Preset

/-- What each species grows from. -/
abbrev Catalogue (α : Type) [Scalar α] : Type := Species → Preset α

/-- The catalogue with another entry for one species. -/
def Catalogue.replace {α : Type} [Scalar α] (catalogue : Catalogue α) (species : Species)
    (preset : Preset α) : Catalogue α :=
  fun s => if s = species then preset else catalogue s

/-- A replaced species has its new preset. -/
@[simp] theorem Catalogue.replace_self {α : Type} [Scalar α] (catalogue : Catalogue α)
    (species : Species) (preset : Preset α) :
    catalogue.replace species preset species = preset := by
  simp [Catalogue.replace]

/-- To replace one species leaves the others as they are. -/
theorem Catalogue.replace_of_ne {α : Type} [Scalar α] (catalogue : Catalogue α)
    {species other : Species} (preset : Preset α) (h : other ≠ species) :
    catalogue.replace species preset other = catalogue other := by
  simp [Catalogue.replace, h]

end PlantGrowth
