import PlantGrowth.Proofs.Draw.Outcome
import PlantGrowth.Proofs.Turtle.Symbol
import PlantGrowth.Turtle.Interpretation

/-!
# What the marks decide

The marks of a word decide the segments of its plant, and the positions and scales of its leaves and
blooms; the draws decide only rotations (`run_interpret_ok`). Where the turns of the preset exist,
nothing but a refused draw keeps the plant from being made (`onlyRefuses_interpret`).
-/

set_option autoImplicit false

namespace PlantGrowth

variable {α : Type}

/-- Organs that are changed, but stay what they are, make a plant with changed leaves and blooms. -/
theorem Plant.ofOrgans_map {f : Organ α → Organ α} {leaf bloom : Ornament α → Ornament α}
    (hsegment : ∀ organ, (f organ).segment? = organ.segment?)
    (hleaf : ∀ organ, (f organ).leaf? = organ.leaf?.map leaf)
    (hbloom : ∀ organ, (f organ).bloom? = organ.bloom?.map bloom) (organs : List (Organ α)) :
    ofOrgans (organs.map f) =
      ⟨(ofOrgans organs).segments, (ofOrgans organs).leaves.map leaf,
        (ofOrgans organs).blooms.map bloom⟩ := by
  unfold ofOrgans
  simp only [List.filterMap_map, List.map_filterMap, Function.comp_def, hsegment, hleaf, hbloom]

/-- The place and size of a leaf or a bloom. -/
def Ornament.site (o : Ornament α) : Site α := ⟨o.position, o.scale⟩

namespace GrammarPreset

variable [Scalar α]

/-- Orienting a mark keeps what it is, its place and its size. -/
theorem run_orient_ok {preset : GrammarPreset α} {mark : Mark α} {organ : Organ α}
    {s : Source α} {i j : Nat} (h : (preset.orient mark).run s i = (.ok organ, j)) :
    organ.segment? = mark.segment? ∧ organ.leaf?.map Ornament.site = mark.leaf? ∧
      organ.bloom?.map Ornament.site = mark.bloom? := by
  cases mark with
  | segment segment =>
    cases h
    exact ⟨rfl, rfl, rfl⟩
  | leaf site =>
    obtain ⟨rotation, k, -, h⟩ := Drawing.run_bind_eq_ok_iff.1 h
    cases h
    exact ⟨rfl, rfl, rfl⟩
  | bloom site =>
    obtain ⟨rotation, k, -, h⟩ := Drawing.run_bind_eq_ok_iff.1 h
    cases h
    exact ⟨rfl, rfl, rfl⟩

/-- Where the turns exist, the plant of a word is made of its oriented marks. -/
theorem interpret_eq {preset : GrammarPreset α} {rotations : Rotations α}
    (hrotations : Rotations.ofAngle preset.angle = .ok rotations) (word : List Char) :
    preset.interpret word =
      (preset.marksOf rotations word).mapM preset.orient >>= fun organs =>
        pure (Plant.ofOrgans organs) := by
  rw [interpret, hrotations]
  rfl

/-- A plant that is made of a word has the segments of its marks, and its leaves and blooms stand at
their sites. -/
theorem run_interpret_ok {preset : GrammarPreset α} {rotations : Rotations α}
    (hrotations : Rotations.ofAngle preset.angle = .ok rotations) {word : List Char}
    {s : Source α} {i j : Nat} {plant : Plant α}
    (h : (preset.interpret word).run s i = (.ok plant, j)) :
    plant.segments = (preset.marksOf rotations word).filterMap Mark.segment? ∧
      plant.leaves.map Ornament.site = (preset.marksOf rotations word).filterMap Mark.leaf? ∧
      plant.blooms.map Ornament.site = (preset.marksOf rotations word).filterMap Mark.bloom? := by
  rw [interpret, hrotations] at h
  obtain ⟨_, k, hok, h⟩ := Drawing.run_bind_eq_ok_iff.1 h
  cases hok
  obtain ⟨organs, l, horgans, h⟩ := Drawing.run_bind_eq_ok_iff.1 h
  cases h
  refine ⟨?_, ?_, ?_⟩
  · exact Drawing.filterMap_of_run_mapM (fun _ _ _ _ _ h => (run_orient_ok h).1) horgans
  · rw [Plant.ofOrgans, List.map_filterMap]
    exact Drawing.filterMap_of_run_mapM (fun _ _ _ _ _ h => (run_orient_ok h).2.1) horgans
  · rw [Plant.ofOrgans, List.map_filterMap]
    exact Drawing.filterMap_of_run_mapM (fun _ _ _ _ _ h => (run_orient_ok h).2.2) horgans

/-- Orienting a mark fails only where a draw is refused. -/
theorem onlyRefuses_orient (preset : GrammarPreset α) (mark : Mark α) :
    (preset.orient mark).OnlyRefuses := by
  cases mark with
  | segment segment => exact .pure _
  | leaf site => exact (Drawing.OnlyRefuses.rotation _).bind fun _ => .pure _
  | bloom site => exact (Drawing.OnlyRefuses.rotation _).bind fun _ => .pure _

/-- Where the turns exist, making the plant of a word fails only where a draw is refused. -/
theorem onlyRefuses_interpret {preset : GrammarPreset α} {rotations : Rotations α}
    (hrotations : Rotations.ofAngle preset.angle = .ok rotations) (word : List Char) :
    (preset.interpret word).OnlyRefuses := by
  rw [interpret, hrotations]
  exact (Drawing.OnlyRefuses.mapM _ preset.onlyRefuses_orient).bind fun _ => .pure _

end GrammarPreset

end PlantGrowth
