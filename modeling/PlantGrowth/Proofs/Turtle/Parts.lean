import PlantGrowth.Proofs.Turtle.Symbol
import PlantGrowth.Turtle.Interpretation

/-!
# Parts of a word

A walk goes on where the part of the word before it has ended, so the marks of a word are those of its
parts one after the other, each left by the turtle after the parts in front (`filterMap_trace_append`).
Only the leaf of the last step of a part can depend on the part that follows.
-/

set_option autoImplicit false

namespace PlantGrowth

variable {α : Type} [Scalar α]

namespace Walk

/-- A view of marks that does not depend on the commands that follow. That of the leaves does. -/
def IgnoresFollowing {β : Type} (view : Mark α → Option β) : Prop :=
  ∀ (w : Walk α) (following others : List Command) (c : Command),
    (w.marks following c).filterMap view = (w.marks others c).filterMap view

/-- A step ahead leaves one segment, whatever follows. -/
theorem segments_of_forward (w : Walk α) (following : List Command) :
    (w.marks following .forward).filterMap Mark.segment? = [w.turtle.segmentAhead] := by
  rw [marks]
  split <;> rfl

/-- Which segments a walk leaves does not depend on what follows a command. -/
theorem ignoresFollowing_segment? : IgnoresFollowing (Mark.segment? (α := α)) := by
  intro w following others c
  cases c with
  | forward => rw [segments_of_forward, segments_of_forward]
  | turn | push | pop | bloom | idle => rfl

/-- Which blooms a walk leaves does not depend on what follows a command. -/
theorem ignoresFollowing_bloom? : IgnoresFollowing (Mark.bloom? (α := α)) := by
  intro w following others c
  cases c with
  | forward =>
    simp only [marks]
    split <;> split <;> rfl
  | turn | push | pop | bloom | idle => rfl

/-- What does not depend on the commands that follow is left by two lists of commands one after the
other. -/
theorem filterMap_trace_append {β : Type} {view : Mark α → Option β}
    (hview : IgnoresFollowing view) (rotations : Rotations α) (w : Walk α)
    (commands more : List Command) :
    (trace rotations w (commands ++ more)).filterMap view =
      (trace rotations w commands).filterMap view ++
        (trace rotations (w.after rotations commands) more).filterMap view := by
  induction commands generalizing w with
  | nil => simp [trace]
  | cons c rest ih =>
    simp only [List.cons_append, trace, List.filterMap_append, after_cons]
    rw [ih, hview w (rest ++ more) rest c, List.append_assoc]

/-- The marks that the symbol at a position of a word leaves. -/
def marksAt (rotations : Rotations α) (w : Walk α) (word : List Char) (n : Nat) : List (Mark α) :=
  match word.drop n with
  | [] => []
  | c :: rest =>
    (w.after rotations ((word.take n).map Command.ofChar)).marks (rest.map Command.ofChar)
      (Command.ofChar c)

/-- The marks of a word are those at its places. -/
theorem trace_eq_flatMap (rotations : Rotations α) (w : Walk α) (word : List Char) :
    trace rotations w (word.map Command.ofChar) =
      (List.range word.length).flatMap (w.marksAt rotations word) := by
  induction word generalizing w with
  | nil => rfl
  | cons c rest ih =>
    have hnext (n : Nat) : w.marksAt rotations (c :: rest) (n + 1) =
        (w.step rotations (Command.ofChar c)).marksAt rotations rest n := by
      simp only [marksAt, List.drop_succ_cons, List.take_succ_cons, List.map_cons, after_cons]
    rw [List.map_cons, trace, ih, List.length_cons, List.range_succ_eq_map, List.flatMap_cons,
      List.flatMap_map]
    simp only [Nat.succ_eq_add_one, hnext]
    rfl

end Walk

namespace GrammarPreset

/-- The turtle after a word. -/
def turtleAfter (preset : GrammarPreset α) (rotations : Rotations α) (word : List Char) : Turtle α :=
  (Walk.after rotations ⟨.start preset.segmentLength preset.radius, []⟩
    (word.map Command.ofChar)).turtle

end GrammarPreset

end PlantGrowth
