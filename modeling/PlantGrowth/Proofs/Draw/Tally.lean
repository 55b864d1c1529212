import Mathlib.Algebra.Ring.Nat
import PlantGrowth.Draw.Range

/-!
# How many draws a computation takes

The number of draws of some computations is known before they run (`Drawing.Takes`). It is additive
under sequencing, and for the elements of a list it is the sum of their numbers (`Takes.mapM`).
-/

set_option autoImplicit false

namespace PlantGrowth.Drawing

variable {α β γ : Type} {n p : Nat}

/-- The computation takes `n` draws and has a result, unless one of them is refused, which ends it
there. -/
def Takes (n : Nat) (m : Drawing α β) : Prop :=
  ∀ (s : Source α) (i : Nat), (∃ b, m.run s i = (.ok b, i + n)) ∨
    ∃ k < n, ∃ e, s (i + k) = .error e ∧ m.run s i = (.error e, i + k + 1)

namespace Takes

/-- A value by itself takes no draw. -/
protected theorem pure (b : β) : Takes 0 (pure b : Drawing α β) := fun _ _ => .inl ⟨b, rfl⟩

/-- A draw takes one draw. -/
protected theorem draw : Takes 1 (draw : Drawing α α) := by
  intro s i
  rw [run_draw]
  cases hdraw : s i with
  | ok u => exact .inl ⟨u, rfl⟩
  | error e => exact .inr ⟨0, Nat.one_pos, e, hdraw, rfl⟩

/-- One computation after the other takes the draws of both. -/
protected theorem bind {m : Drawing α β} {f : β → Drawing α γ} (hm : Takes n m)
    (hf : ∀ b, Takes p (f b)) : Takes (n + p) (m >>= f) := by
  intro s i
  rcases hm s i with ⟨b, hrun⟩ | ⟨k, hk, e, hdraw, hrun⟩
  · rw [run_bind_of_ok hrun]
    rcases hf b s (i + n) with ⟨c, hlast⟩ | ⟨k, hk, e, hdraw, hlast⟩
    · rw [Nat.add_assoc] at hlast
      exact .inl ⟨c, hlast⟩
    · rw [Nat.add_assoc i n k] at hdraw hlast
      exact .inr ⟨n + k, by omega, e, hdraw, hlast⟩
  · exact .inr ⟨k, by omega, e, hdraw, run_bind_of_error hrun⟩

/-- A list of computations takes the draws of all its elements. -/
protected theorem mapM {f : γ → Drawing α β} {number : γ → Nat}
    (hf : ∀ x, Takes (number x) (f x)) (xs : List γ) :
    Takes (xs.map number).sum (xs.mapM f) := by
  induction xs with
  | nil => exact .pure []
  | cons x xs ih =>
    rw [List.mapM_cons, List.map_cons, List.sum_cons]
    exact (hf x).bind fun y => ih.bind fun ys => .pure (y :: ys)

/-- A number around zero takes one draw. -/
protected theorem aroundZero [Scalar α] (spread : α) : Takes 1 (aroundZero spread) :=
  Takes.draw.bind fun _ => .pure _

/-- A rotation takes three draws. -/
protected theorem rotation [Scalar α] (spread : α) : Takes 3 (rotation spread) :=
  (Takes.aroundZero spread).bind fun _ =>
    (Takes.aroundZero spread).bind fun _ =>
      (Takes.aroundZero spread).bind fun _ => .pure _

end Takes

end PlantGrowth.Drawing
