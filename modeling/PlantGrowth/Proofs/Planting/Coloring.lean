import PlantGrowth.Planting.Basic
import PlantGrowth.Proofs.Turtle.Marks

/-!
# Colours

No draw, no count and no place depends on a colour: to grow a plant in other colours is to grow it and
to dye it afterwards, for a plant of a grammar (`GrammarPreset.grow_withColors`) as for a vine
(`ColonizationPreset.grow_withLeafColor`). So the plants of all colours are one plant, dyed
(`colors_are_labels`).
-/

set_option autoImplicit false

namespace PlantGrowth

variable {α : Type}

/-- A leaf or a bloom in another colour. -/
def Ornament.dyed (o : Ornament α) (color : String) : Ornament α := { o with color := color }

/-- A part of a plant with its leaf or bloom in another colour. -/
def Organ.dyed (leafColor bloomColor : String) : Organ α → Organ α
  | .segment s => .segment s
  | .leaf o => .leaf (o.dyed leafColor)
  | .bloom o => .bloom (o.dyed bloomColor)

/-- A plant with all its leaves in one colour and all its blooms in another. -/
def Plant.dyed (leafColor bloomColor : String) (plant : Plant α) : Plant α where
  segments := plant.segments
  leaves := plant.leaves.map fun o => o.dyed leafColor
  blooms := plant.blooms.map fun o => o.dyed bloomColor

/-- The plant of dyed organs is the dyed plant. -/
theorem Plant.ofOrgans_map_dyed (leafColor bloomColor : String) (organs : List (Organ α)) :
    ofOrgans (organs.map (Organ.dyed leafColor bloomColor)) =
      (ofOrgans organs).dyed leafColor bloomColor := by
  apply ofOrgans_map
  · intro organ
    cases organ <;> rfl
  · intro organ
    cases organ <;> rfl
  · intro organ
    cases organ <;> rfl

/-! ## Plants of a grammar -/

namespace GrammarPreset

/-- A preset with the given colours. -/
def withColors (preset : GrammarPreset α) (leafColor : String) (bloomColor : Option String) :
    GrammarPreset α :=
  { preset with leafColor := leafColor, bloomColor := bloomColor }

/-- A preset that is given a colour is one whose colours are set. -/
theorem colored_eq_withColors (preset : GrammarPreset α) (given : Option String) :
    preset.colored given =
      preset.withColors preset.leafColor ((Ornament.namedColor? given).or preset.bloomColor) := by
  unfold colored
  cases Ornament.namedColor? given <;> rfl

variable [Scalar α]

variable (preset : GrammarPreset α) (leafColor : String) (bloomColor : Option String)

/-- A mark is oriented in other colours by orienting and dyeing it. -/
theorem orient_withColors (mark : Mark α) :
    (preset.withColors leafColor bloomColor).orient mark =
      Organ.dyed leafColor (preset.withColors leafColor bloomColor).colorOfBlooms <$>
        preset.orient mark := by
  cases mark with
  | segment s => simp [orient, Organ.dyed]
  | leaf site => simp [orient, Organ.dyed, Ornament.dyed, withColors]
  | bloom site => simp [orient, Organ.dyed, Ornament.dyed]

/-- A word is interpreted in other colours by interpreting it and dyeing the plant. -/
theorem interpret_withColors (word : List Char) :
    (preset.withColors leafColor bloomColor).interpret word =
      Plant.dyed leafColor (preset.withColors leafColor bloomColor).colorOfBlooms <$>
        preset.interpret word := by
  have hangle : (preset.withColors leafColor bloomColor).angle = preset.angle := rfl
  have hmarks (rotations : Rotations α) :
      (preset.withColors leafColor bloomColor).marksOf rotations word =
        preset.marksOf rotations word := rfl
  have horient := funext (preset.orient_withColors leafColor bloomColor)
  simp only [interpret, hangle, hmarks, horient, Drawing.mapM_map, map_bind, bind_map_left, map_pure,
    Plant.ofOrgans_map_dyed]

/-- A grammar is grown in other colours by growing it and dyeing the plant. -/
theorem grow_withColors (stage : Int) :
    (preset.withColors leafColor bloomColor).grow stage =
      Plant.dyed leafColor (preset.withColors leafColor bloomColor).colorOfBlooms <$>
        preset.grow stage := by
  have hword : (preset.withColors leafColor bloomColor).wordAt stage = preset.wordAt stage := rfl
  simp only [grow, hword, interpret_withColors, map_bind]

end GrammarPreset

variable [Scalar α]

/-! ## Vines -/

namespace ColonizationPreset

/-- A preset whose leaves have the given colour. -/
def withLeafColor (preset : ColonizationPreset α) (leafColor : String) : ColonizationPreset α :=
  { preset with leafColor := leafColor }

variable (preset : ColonizationPreset α) (leafColor : String)

/-- The leaf of a segment in another colour is the leaf, dyed. -/
theorem leafOf_withLeafColor (segment : Segment α) :
    (preset.withLeafColor leafColor).leafOf segment =
      Option.map (fun o => o.dyed leafColor) <$> preset.leafOf segment := by
  unfold leafOf
  rw [map_bind]
  congr 1
  funext u
  split
  · simp [leafNear, Ornament.dyed, withLeafColor]
  · simp

/-- The bloom of a vine in another colour is the bloom, dyed. -/
theorem bloomsOf_dyed (segments : List (Segment α)) (color color' : String) :
    bloomsOf segments color = List.map (fun o => o.dyed color) <$> bloomsOf segments color' := by
  cases hlast : segments.getLast? with
  | none => simp [bloomsOf, hlast]
  | some last => simp [bloomsOf, bloomAt, hlast, Ornament.dyed]

/-- The colour of leaves has no say in what a step grows. -/
theorem extend_withLeafColor (nodes : Array (Node α)) (pulls : List (Nat × Vec3 α)) :
    (preset.withLeafColor leafColor).extend nodes pulls = preset.extend nodes pulls := by
  have hsprout : (preset.withLeafColor leafColor).sproutAt = preset.sproutAt := rfl
  induction pulls generalizing nodes with
  | nil => rfl
  | cons pull others ih => simp only [extend, hsprout, ih]

/-- The leaf colour takes no part in the growth. -/
theorem trail_withLeafColor (reach : Reach α) (steps : Nat) (f : Frontier α) :
    (preset.withLeafColor leafColor).trail reach steps f = preset.trail reach steps f := by
  induction steps generalizing f with
  | zero => rfl
  | succ steps ih => simp only [trail, extend_withLeafColor, ih]

/-- A trail is dressed in other colours by dressing it and dyeing the plant. -/
theorem dress_withLeafColor (color color' : String) (trail : Trail α) :
    (preset.withLeafColor leafColor).dress color trail =
      Plant.dyed leafColor color <$> preset.dress color' trail := by
  have hleaves := funext (preset.leafOf_withLeafColor leafColor)
  unfold dress
  rw [hleaves, Drawing.mapM_map, bind_map_left, map_bind]
  congr 1
  funext leaves
  cases trail.fault with
  | some e => rfl
  | none =>
    rw [bloomsOf_dyed trail.segments color color']
    simp [Plant.dyed, List.filterMap_map, List.map_filterMap]

/-- A vine is grown in other colours by growing it and dyeing it. -/
theorem grow_withLeafColor (stage : Int) (color color' : String) :
    (preset.withLeafColor leafColor).grow stage color =
      Plant.dyed leafColor color <$> preset.grow stage color' := by
  have hcount : (preset.withLeafColor leafColor).attractorCount = preset.attractorCount := rfl
  have hreach : (preset.withLeafColor leafColor).reach = preset.reach := rfl
  have hsown : (preset.withLeafColor leafColor).sown = preset.sown := rfl
  simp only [grow, growAmong, hcount, hreach, trailAt, hsown, trail_withLeafColor, map_bind,
    dress_withLeafColor preset leafColor color color']

end ColonizationPreset

/-! ## Plants of the catalogue -/

/-- The colour that a text names; where it is absent or empty, another one. -/
def colorOr (text : Option String) (otherwise : String) : String :=
  match text with
  | none => otherwise
  | some color => if color = "" then otherwise else color

/-- A colour that is not named is the other one. -/
theorem getD_namedColor? (text : Option String) (otherwise : String) :
    (Ornament.namedColor? text).getD otherwise = colorOr text otherwise := by
  cases text with
  | none => rfl
  | some color =>
    by_cases hempty : color = "" <;> simp [Ornament.namedColor?, colorOr, Option.filter, hempty]

/-- Of two colours the first one that is named counts. -/
theorem colorOr_or (text other : Option String) (otherwise : String) :
    colorOr ((Ornament.namedColor? text).or other) otherwise =
      colorOr text (colorOr other otherwise) := by
  cases text with
  | none => rfl
  | some color =>
    by_cases hempty : color = "" <;> simp [Ornament.namedColor?, colorOr, Option.filter, hempty]

namespace Preset

/-- A preset whose leaves have the given colour, whatever its method. -/
def withLeafColor (preset : Preset α) (leafColor : String) : Preset α :=
  match preset with
  | .grammar p => .grammar { p with leafColor := leafColor }
  | .colonization p => .colonization { p with leafColor := leafColor }

/-- The colour of all blooms of a plant that was given a colour, or none, or an empty one. -/
def bloomColorFor (preset : Preset α) (given : Option String) : String :=
  match preset with
  | .grammar p => colorOr given (colorOr p.bloomColor "#ef798a")
  | .colonization _ => colorOr given "#d4f1cd"

/-- To grow in other colours is to dye what grows without a colour. -/
theorem grow_withLeafColor (preset : Preset α) (leafColor : String) (stage : Int)
    (given : Option String) :
    (preset.withLeafColor leafColor).grow stage given =
      Plant.dyed leafColor (preset.bloomColorFor given) <$> preset.grow stage none := by
  cases preset with
  | grammar p =>
    have hcolor : (p.withColors leafColor
        ((Ornament.namedColor? given).or p.bloomColor)).colorOfBlooms =
          (grammar p).bloomColorFor given := by
      unfold GrammarPreset.colorOfBlooms
      rw [getD_namedColor?]
      exact colorOr_or given p.bloomColor GrammarPreset.defaultBloomColor
    have hcolored : (p.withColors leafColor p.bloomColor).colored given =
        p.withColors leafColor ((Ornament.namedColor? given).or p.bloomColor) :=
      GrammarPreset.colored_eq_withColors _ given
    show ((p.withColors leafColor p.bloomColor).colored given).grow stage = _
    rw [hcolored, GrammarPreset.grow_withColors, hcolor]
    rfl
  | colonization p =>
    have hcolor : (Ornament.namedColor? given).getD ColonizationPreset.defaultBloomColor =
        (colonization p).bloomColorFor given :=
      getD_namedColor? given ColonizationPreset.defaultBloomColor
    show (p.withLeafColor leafColor).grow stage _ = _
    rw [hcolor]
    exact p.grow_withLeafColor leafColor stage _ _

/-- Every preset has some colour of leaves. -/
theorem exists_withLeafColor_eq (preset : Preset α) :
    ∃ leafColor, preset.withLeafColor leafColor = preset := by
  cases preset with
  | grammar p => exact ⟨p.leafColor, rfl⟩
  | colonization p => exact ⟨p.leafColor, rfl⟩

end Preset

namespace Catalogue

variable (catalogue : Catalogue α) (species : Species)

/-- The catalogue with another leaf colour for one species. -/
def withLeafColor (leafColor : String) : Catalogue α :=
  catalogue.replace species ((catalogue species).withLeafColor leafColor)

/-- The colour of leaves does not move the greatest stage. -/
theorem greatestStage_withLeafColor (leafColor : String) :
    (catalogue.withLeafColor species leafColor).greatestStage species =
      catalogue.greatestStage species := by
  unfold greatestStage withLeafColor
  rw [replace_self]
  cases catalogue species <;> rfl

/-- A plant of other colours is the plant of its species, dyed. -/
theorem plant_withLeafColor (leafColor : String) (stage : Int) (key : String)
    (given : Option String) :
    (catalogue.withLeafColor species leafColor).plant species stage key given =
      (catalogue.plant species stage key none).map
        (Plant.dyed leafColor ((catalogue species).bloomColorFor given)) := by
  have hpreset : catalogue.withLeafColor species leafColor species =
      (catalogue species).withLeafColor leafColor := catalogue.replace_self species _
  simp only [plant, boundedStage, greatestStage_withLeafColor, hpreset]
  cases catalogue.greatestStage species with
  | error e => rfl
  | ok greatest =>
    show (((catalogue species).withLeafColor leafColor).grow _ given |>.run (.keyed key) 0).1 = _
    rw [Preset.grow_withLeafColor, Drawing.run_map]
    rfl

/-- A plant of a named species in other colours is the plant, dyed. -/
theorem plantNamed_withLeafColor (leafColor : String) (stage : Stage α) (key : String)
    (given : Option String) :
    (catalogue.withLeafColor species leafColor).plantNamed species.name stage key given =
      (catalogue.plantNamed species.name stage key none).map
        (Plant.dyed leafColor ((catalogue species).bloomColorFor given)) := by
  unfold plantNamed
  rw [Species.named_name]
  cases stage.toInteger with
  | error e => rfl
  | ok n => exact catalogue.plant_withLeafColor species leafColor n key given

/-- Every catalogue gives its species some colour of leaves. -/
theorem exists_withLeafColor_eq :
    ∃ leafColor, catalogue.withLeafColor species leafColor = catalogue := by
  obtain ⟨leafColor, hself⟩ := (catalogue species).exists_withLeafColor_eq
  refine ⟨leafColor, ?_⟩
  funext other
  unfold withLeafColor replace
  rw [hself]
  split
  · next h => rw [h]
  · rfl

end Catalogue

/-- Colours are labels. All the colours that may be given for the blooms of a species, and all leaf
colours that its preset may have, lead to the same fault, or to one plant in which they dye the blooms
and the leaves. The blooms have the colour that is given; without one, or with an empty one, they have
that of the preset of a grammar or else `#ef798a`, and on vines `#d4f1cd`. -/
theorem colors_are_labels (catalogue : Catalogue α) (species : Species) (stage : Stage α)
    (key : String) :
    (∃ e, ∀ given leafColor,
      catalogue.plantNamed species.name stage key given = .error e ∧
      (catalogue.withLeafColor species leafColor).plantNamed species.name stage key given =
        .error e) ∨
    ∃ plant : Plant α, ∀ given leafColor,
      catalogue.plantNamed species.name stage key given =
        .ok ⟨plant.segments, plant.leaves, plant.blooms.map fun bloom =>
          { bloom with color := (catalogue species).bloomColorFor given }⟩ ∧
      (catalogue.withLeafColor species leafColor).plantNamed species.name stage key given =
        .ok ⟨plant.segments, plant.leaves.map fun leaf => { leaf with color := leafColor },
          plant.blooms.map fun bloom =>
            { bloom with color := (catalogue species).bloomColorFor given }⟩ := by
  have hdyed := catalogue.plantNamed_withLeafColor species
  obtain ⟨own, hown⟩ := catalogue.exists_withLeafColor_eq species
  have hgiven := hdyed own stage key
  rw [hown] at hgiven
  cases hplain : catalogue.plantNamed species.name stage key none with
  | error e =>
    left
    refine ⟨e, fun given leafColor => ⟨?_, ?_⟩⟩
    · rw [hgiven, hplain]
      rfl
    · rw [hdyed, hplain]
      rfl
  | ok plain =>
    right
    refine ⟨⟨plain.segments, plain.leaves.map fun leaf => leaf.dyed own, plain.blooms⟩, ?_⟩
    intro given leafColor
    constructor
    · rw [hgiven, hplain]
      rfl
    · rw [hdyed, hplain, List.map_map]
      rfl

end PlantGrowth
