import PlantGrowth.Proofs.Draw.SideBySide
import PlantGrowth.Proofs.Turtle.Marks

/-!
# What the draws of a word decide

Two plants of one word, made of two sources that refuse nothing, are the same but for the rotations
of their leaves and blooms, and take the same number of draws (`alike_interpret`). Without their
rotations, blooms are those of the marks (`unturned_of_run_interpret`).
-/

set_option autoImplicit false

namespace PlantGrowth

open Drawing

variable {α : Type} [Scalar α]

/-- A leaf or a bloom with its rotation left out. -/
def Ornament.unturned (o : Ornament α) : Ornament α := { o with rotation := Vec3.origin }

/-- An organ with its rotation left out, if it has one. -/
def Organ.unturned : Organ α → Organ α
  | .segment s => .segment s
  | .leaf o => .leaf o.unturned
  | .bloom o => .bloom o.unturned

/-- A plant with all rotations left out. -/
def Plant.unturned (plant : Plant α) : Plant α where
  segments := plant.segments
  leaves := plant.leaves.map Ornament.unturned
  blooms := plant.blooms.map Ornament.unturned

/-- The plant of organs without rotations is the plant without rotations. -/
theorem Plant.unturned_ofOrgans (organs : List (Organ α)) :
    (Plant.ofOrgans organs).unturned = Plant.ofOrgans (organs.map Organ.unturned) := by
  symm
  apply Plant.ofOrgans_map
  · intro organ
    cases organ <;> rfl
  · intro organ
    cases organ <;> rfl
  · intro organ
    cases organ <;> rfl

/-! ## Blooms without their rotations -/

namespace GrammarPreset

/-- The bloom at a site, with its rotation left out. -/
def unturnedBloom (preset : GrammarPreset α) (site : Site α) : Ornament α :=
  ⟨site.position, Vec3.origin, site.scale, preset.colorOfBlooms⟩

/-- An oriented bloom is the bloom of its mark, but for the rotation. -/
theorem unturned_of_run_orient {preset : GrammarPreset α} {mark : Mark α} {organ : Organ α}
    {s : Source α} {i j : Nat} (h : (preset.orient mark).run s i = (.ok organ, j)) :
    organ.bloom?.map Ornament.unturned = mark.bloom?.map preset.unturnedBloom := by
  cases mark with
  | segment segment =>
    cases h
    rfl
  | leaf site =>
    obtain ⟨rotation, k, -, h⟩ := Drawing.run_bind_eq_ok_iff.1 h
    cases h
    rfl
  | bloom site =>
    obtain ⟨rotation, k, -, h⟩ := Drawing.run_bind_eq_ok_iff.1 h
    cases h
    rfl

/-- Without their rotations the blooms of a word are those of its marks. -/
theorem unturned_of_run_interpret {preset : GrammarPreset α} {rotations : Rotations α}
    (hrotations : Rotations.ofAngle preset.angle = .ok rotations) {word : List Char}
    {s : Source α} {i j : Nat} {plant : Plant α}
    (h : (preset.interpret word).run s i = (.ok plant, j)) :
    plant.blooms.map Ornament.unturned =
      ((preset.marksOf rotations word).filterMap Mark.bloom?).map preset.unturnedBloom := by
  rw [interpret_eq hrotations] at h
  obtain ⟨organs, k, horgans, h⟩ := run_bind_eq_ok_iff.1 h
  cases h
  rw [Plant.ofOrgans, List.map_filterMap, List.map_filterMap]
  exact filterMap_of_run_mapM (fun _ _ _ _ _ h => unturned_of_run_orient h) horgans

end GrammarPreset

/-! ## Two sources -/

/-- Each angle takes one draw, and no draw makes it a fault. -/
theorem alike_aroundZero (spread : α) :
    Alike BothGranted 1 (fun _ _ => True) (aroundZero spread) (aroundZero spread) := by
  have hdraw : Alike (α := α) BothGranted 1 (fun _ _ => True) draw draw := by
    refine .draw ?_
    rintro d d' ⟨⟨u, rfl⟩, ⟨u', rfl⟩⟩
    trivial
  exact hdraw.bind fun u u' _ => .pure trivial

/-- Rotations take three draws, whatever is drawn. -/
theorem alike_rotation (spread : α) :
    Alike BothGranted 3 (fun _ _ => True) (rotation spread) (rotation spread) :=
  (alike_aroundZero spread).bind fun _ _ _ =>
    (alike_aroundZero spread).bind fun _ _ _ =>
      (alike_aroundZero spread).bind fun _ _ _ => .pure trivial

namespace GrammarPreset

variable (preset : GrammarPreset α)

/-- A mark is oriented to organs that differ in their rotations at most. -/
theorem alike_orient (mark : Mark α) :
    Alike BothGranted 3 (fun organ organ' => organ.unturned = organ'.unturned)
      (preset.orient mark) (preset.orient mark) := by
  cases mark with
  | segment segment => exact Alike.mono (.pure rfl) (Nat.zero_le 3)
  | leaf site =>
    refine (alike_rotation (0.6 : α)).bind (p := 0) ?_
    intro turned turned' _
    exact .pure rfl
  | bloom site =>
    refine (alike_rotation (Scalar.pi : α)).bind (p := 0) ?_
    intro turned turned' _
    exact .pure rfl

/-- The draws of a word decide rotations only. -/
theorem alike_interpret {rotations : Rotations α}
    (hrotations : Rotations.ofAngle preset.angle = .ok rotations) (word : List Char) :
    Alike BothGranted ((preset.marksOf rotations word).length * 3)
      (fun plant plant' => plant.unturned = plant'.unturned)
      (preset.interpret word) (preset.interpret word) := by
  rw [interpret_eq hrotations]
  refine (Alike.mapM preset.alike_orient _).bind fun organs organs' horgans => .pure ?_
  rw [Plant.unturned_ofOrgans, Plant.unturned_ofOrgans, horgans]

end GrammarPreset

end PlantGrowth
