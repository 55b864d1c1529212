import PlantGrowth.Draw.Basic

/-!
# What a list of draws yields

A computation yields a result from a list of draws when it takes just these draws and makes this
result, on every source that shows them and from every position. Lists are put together where
computations are (`Yields.bind`), so a source can be built for a result that is built step by step.
-/

set_option autoImplicit false

namespace PlantGrowth

variable {α β γ : Type}

namespace Source

/-- From a position on, the source grants these draws one after the other. -/
def Shows (s : Source α) (i : Nat) (us : List α) : Prop :=
  ∀ k u, us[k]? = some u → s (i + k) = .ok u

/-- A source that shows a row shows the beginning of it. -/
theorem Shows.left {s : Source α} {i : Nat} {us vs : List α} (h : s.Shows i (us ++ vs)) :
    s.Shows i us := by
  intro k u hu
  obtain ⟨hk, -⟩ := List.getElem?_eq_some_iff.1 hu
  exact h k u (by rw [List.getElem?_append_left hk, hu])

/-- A source that shows a row shows the rest of it further on. -/
theorem Shows.right {s : Source α} {i : Nat} {us vs : List α} (h : s.Shows i (us ++ vs)) :
    s.Shows (i + us.length) vs := by
  intro k u hu
  rw [Nat.add_assoc]
  refine h (us.length + k) u ?_
  rw [List.getElem?_append_right (Nat.le_add_right _ _), Nat.add_sub_cancel_left, hu]

/-- The source of the listed draws, and of one draw over and over after them. -/
def listed (us : List α) (rest : α) : Source α := fun n => .ok (us.getD n rest)

/-- A source that is listed shows its list. -/
theorem shows_listed (us : List α) (rest : α) : (listed us rest).Shows 0 us := by
  intro k u hu
  rw [Nat.zero_add, listed, List.getD_eq_getElem?_getD, hu, Option.getD_some]

/-- Each draw of a listed source is one of the list or the draw after it. -/
theorem exists_listed_eq_ok {P : α → Prop} {us : List α} (hus : ∀ u ∈ us, P u) {rest : α}
    (hrest : P rest) (n : Nat) : ∃ u, listed us rest n = .ok u ∧ P u := by
  refine ⟨_, rfl, ?_⟩
  rw [List.getD_eq_getElem?_getD]
  cases hu : us[n]? with
  | none => exact hrest
  | some u => exact hus u (List.mem_of_getElem? hu)

end Source

namespace Drawing

/-- The computation makes this result of these draws, and takes no other. -/
def Yields (m : Drawing α β) (us : List α) (b : β) : Prop :=
  ∀ (s : Source α) (i : Nat), s.Shows i us → m.run s i = (.ok b, i + us.length)

namespace Yields

/-- A value by itself yields without a draw. -/
protected theorem pure (b : β) : Yields (pure b : Drawing α β) [] b := fun _ _ _ => rfl

/-- A draw yields what is drawn. -/
protected theorem draw (u : α) : Yields draw [u] u := by
  intro s i hs
  rw [run_draw, ← hs 0 u rfl]
  rfl

/-- A known result yields without a draw. -/
protected theorem ofExcept {r : Except Fault β} {b : β} (h : r = .ok b) :
    Yields (ofExcept r : Drawing α β) [] b := by
  subst h
  exact fun _ _ _ => rfl

/-- One computation after the other yields from the draws of both. -/
protected theorem bind {m : Drawing α β} {f : β → Drawing α γ} {us vs : List α} {b : β} {c : γ}
    (hm : Yields m us b) (hf : Yields (f b) vs c) : Yields (m >>= f) (us ++ vs) c := by
  intro s i hs
  rw [run_bind_of_ok (hm s i hs.left), hf s _ hs.right, List.length_append, Nat.add_assoc]

end Yields

end Drawing

end PlantGrowth
