import PlantGrowth.Scalar.Basic

/-!
# Draws

A source of draws says what every draw of an endless stream is, by its position; a computation that
takes draws is a function of the source and of the position it starts at. The position after the
computation is therefore the number of draws that were taken so far, also after a fault.

Main statements: the laws of sequencing (`instance : LawfulMonad`), and one equation per operation
that says what it does to outcome and position (`run_pure`, `run_bind`, `run_draw`, `run_ofExcept`).
-/

set_option autoImplicit false

namespace PlantGrowth

/-- The outcome of each draw of a stream, by its position; a draw may be refused. -/
abbrev Source (α : Type) := Nat → Except Fault α

namespace Source

/-- The listed values, over and over. -/
def cycle {α : Type} (first : α) (others : List α) : Source α := fun n =>
  .ok ((first :: others).getD (n % (others.length + 1)) first)

/-- The source that refuses every draw. -/
def refusing {α : Type} : Source α := fun _ => .error .drawRefused

end Source

/-- A computation that takes draws: from a source and a position it makes an outcome and the
position after its last draw. -/
structure Drawing (α β : Type) where
  /-- The outcome and the position after it. -/
  run : Source α → Nat → Except Fault β × Nat

namespace Drawing

variable {α β γ : Type}

/-- Computations that run alike are equal. -/
@[ext] theorem ext {m n : Drawing α β} (h : m.run = n.run) : m = n := by
  cases m; cases n; exact congrArg Drawing.mk h

/-- A result that takes no draw. -/
protected def pure (b : β) : Drawing α β := ⟨fun _ i => (.ok b, i)⟩

/-- The second computation goes on where the first one stopped; a fault ends both. -/
protected def bind (m : Drawing α β) (f : β → Drawing α γ) : Drawing α γ :=
  ⟨fun s i =>
    match m.run s i with
    | (.ok b, j) => (f b).run s j
    | (.error e, j) => (.error e, j)⟩

instance : Monad (Drawing α) where
  pure := Drawing.pure
  bind := Drawing.bind

/-- The next draw. A refused draw counts. -/
def draw : Drawing α α := ⟨fun s i => (s i, i + 1)⟩

/-- An outcome that takes no draw. -/
def ofExcept (r : Except Fault β) : Drawing α β := ⟨fun _ i => (r, i)⟩

instance : MonadLift (Except Fault) (Drawing α) := ⟨ofExcept⟩

/-- A value by itself takes no draw. -/
@[simp] theorem run_pure (b : β) (s : Source α) (i : Nat) :
    (pure b : Drawing α β).run s i = (.ok b, i) := rfl

/-- What follows a computation runs from the position where the computation ends, unless this
fails. -/
theorem run_bind (m : Drawing α β) (f : β → Drawing α γ) (s : Source α) (i : Nat) :
    (m >>= f).run s i =
      match m.run s i with
      | (.ok b, j) => (f b).run s j
      | (.error e, j) => (.error e, j) := rfl

/-- A draw is the element of the stream at the position, which moves on by one. -/
@[simp] theorem run_draw (s : Source α) (i : Nat) :
    (draw : Drawing α α).run s i = (s i, i + 1) := rfl

/-- An outcome that is known takes no draw. -/
@[simp] theorem run_ofExcept (r : Except Fault β) (s : Source α) (i : Nat) :
    (ofExcept r : Drawing α β).run s i = (r, i) := rfl

/-- An outcome followed by a computation: the computation runs where the outcome is a result. -/
theorem run_bind_of_ok {m : Drawing α β} {f : β → Drawing α γ} {s : Source α} {i j : Nat} {b : β}
    (h : m.run s i = (.ok b, j)) : (m >>= f).run s i = (f b).run s j := by
  simp [run_bind, h]

/-- A fault is the outcome of the whole sequence. -/
theorem run_bind_of_error {m : Drawing α β} {f : β → Drawing α γ} {s : Source α} {i j : Nat}
    {e : Fault} (h : m.run s i = (.error e, j)) : (m >>= f).run s i = (.error e, j) := by
  simp [run_bind, h]

instance : LawfulMonad (Drawing α) :=
  LawfulMonad.mk' (Drawing α)
    (fun m => by
      apply Drawing.ext; funext s i
      show (m >>= fun b => pure (id b)).run s i = m.run s i
      rw [run_bind]
      split <;> simp_all)
    (fun _ _ => rfl)
    (fun m f g => by
      apply Drawing.ext; funext s i
      simp only [run_bind]
      rcases m.run s i with ⟨_ | _, _⟩ <;> rfl)

end Drawing

end PlantGrowth
