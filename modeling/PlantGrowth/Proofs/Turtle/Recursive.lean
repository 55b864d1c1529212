import PlantGrowth.Proofs.Turtle.Nesting
import PlantGrowth.Proofs.Turtle.Symbol
import PlantGrowth.Species.BuiltIn
import PlantGrowth.Turtle.Interpretation

/-!
# The recursive walk

`walkNesting` reads a nesting tree without a stack: a branch is walked by a turtle of its own, and
the turtle at its base goes on as if there had been no branch. The turtle with a stack refines it
(`plantOfMarks_trace_append`): on the word of a tree it makes the same plant from the same draws and
comes back to the turtles that it had remembered.
-/

set_option autoImplicit false

namespace PlantGrowth

/-! ## Plants that follow each other -/

/-- The elements of one plant, and after them those of another. -/
instance {α : Type} : Append (Plant α) :=
  ⟨fun p q => ⟨p.segments ++ q.segments, p.leaves ++ q.leaves, p.blooms ++ q.blooms⟩⟩

namespace Plant

variable {α : Type}

/-- The plant without anything. -/
def empty : Plant α := ⟨[], [], []⟩

/-- The elements of two plants, kind by kind. -/
theorem append_def (p q : Plant α) :
    p ++ q = ⟨p.segments ++ q.segments, p.leaves ++ q.leaves, p.blooms ++ q.blooms⟩ := rfl

/-- The empty plant comes before a plant without an effect. -/
@[simp] theorem empty_append (p : Plant α) : empty ++ p = p := rfl

/-- The empty plant comes after a plant without an effect. -/
@[simp] theorem append_empty (p : Plant α) : p ++ empty = p := by
  simp [append_def, empty]

/-- Plants that follow each other are associative. -/
theorem append_assoc (p q r : Plant α) : p ++ q ++ r = p ++ (q ++ r) := by
  simp [append_def]

/-- The plant of two lists of organs is the plants of both, one after the other. -/
theorem ofOrgans_append (organs more : List (Organ α)) :
    ofOrgans (organs ++ more) = ofOrgans organs ++ ofOrgans more := by
  simp [ofOrgans, append_def]

end Plant

/-- Whether a segment before these items is a tip: nothing is left of its branch, or the next item
is the positive yaw. -/
def Nesting.isTip : Nesting → Bool
  | .done => true
  | .symbol c _ _ => c = '+'
  | .branch _ _ => false

/-- The items of a branch decide by themselves whether the segment before them is a tip. -/
theorem Nesting.isTip_commands (nesting : Nesting) {following : List Command}
    (h : IsBranchEnd .pop following) :
    Command.isTip (nesting.word.map Command.ofChar ++ following) = nesting.isTip := by
  cases nesting with
  | done =>
    cases following with
    | nil => rfl
    | cons c others =>
      rw [h c rfl]
      rfl
  | symbol c hc rest =>
    have hplus : (c = ']' ∨ c = '+') ↔ c = '+' := or_iff_right hc.2
    simp only [word, List.map_cons, List.cons_append, Command.isTip_ofChar_cons, isTip, hplus]
  | branch inner rest => rfl

namespace Rotations

variable {α : Type}

/-- The turn that a symbol stands for, if it stands for one. -/
def ofSymbol? (rotations : Rotations α) : Char → Option (Quat α)
  | '+' => some rotations.yaw.positive
  | '-' => some rotations.yaw.negative
  | '&' => some rotations.pitch.positive
  | '^' => some rotations.pitch.negative
  | '\\' => some rotations.roll.positive
  | '/' => some rotations.roll.negative
  | _ => none

/-- The command of a symbol that turns is its turn. -/
theorem ofSymbol?_of_turn (rotations : Rotations α) {c : Char} {turn : Turn}
    (h : Command.ofChar c = .turn turn) : rotations.ofSymbol? c = some (rotations.quat turn) := by
  obtain ⟨axis, sense⟩ := turn
  cases axis <;> cases sense <;> (obtain rfl := Command.symbol_eq h rfl; rfl)

/-- A symbol without a command does not turn. -/
theorem ofSymbol?_of_idle (rotations : Rotations α) {c : Char} (h : Command.ofChar c = .idle) :
    rotations.ofSymbol? c = none := by
  unfold ofSymbol?
  split <;> first | rfl | cases h

end Rotations

namespace GrammarPreset

variable {α : Type} [Scalar α]

/-- The leaves of a segment: one where the segment is a tip, turned by three draws. -/
def leavesBefore (preset : GrammarPreset α) (rest : Nesting) (finish : Vec3 α) (length : α) :
    Drawing α (List (Ornament α)) :=
  if rest.isTip then do
    let rotation ← Drawing.rotation 0.6
    return [⟨finish, rotation, Scalar.maxOf (0.6 * length) 0.2, preset.leafColor⟩]
  else return []

/-- The plant that a turtle makes of the items of a branch. A symbol without a meaning here is passed
over. -/
def walkNesting (preset : GrammarPreset α) (rotations : Rotations α) :
    Turtle α → Nesting → Drawing α (Plant α)
  | _, .done => return .empty
  | t, .branch inner rest => do
    let child : Turtle α := ⟨t.position, t.orientation, t.length * 0.88, t.radius * 0.8⟩
    let branch ← preset.walkNesting rotations child inner
    let others ← preset.walkNesting rotations t rest
    return branch ++ others
  | t, .symbol c _ rest =>
    if c = 'F' then do
      let finish := t.position + (t.orientation.rotate Vec3.up).scale t.length
      let leaves ← preset.leavesBefore rest finish t.length
      let others ← preset.walkNesting rotations { t with position := finish } rest
      return ⟨[⟨t.position, finish, Scalar.maxOf t.radius 0.01⟩], leaves, []⟩ ++ others
    else if c = '*' then do
      let rotation ← Drawing.rotation Scalar.pi
      let bloom : Ornament α :=
        ⟨t.position, rotation, Scalar.maxOf (t.radius * 3.0) 0.3, preset.colorOfBlooms⟩
      let others ← preset.walkNesting rotations t rest
      return ⟨[], [], [bloom]⟩ ++ others
    else
      match rotations.ofSymbol? c with
      | some turn =>
        preset.walkNesting rotations { t with orientation := t.orientation * turn } rest
      | none => preset.walkNesting rotations t rest

/-- The plant that a preset makes of a nesting tree. -/
def interpretNesting (preset : GrammarPreset α) (nesting : Nesting) : Drawing α (Plant α) := do
  let rotations ← Drawing.ofExcept (Rotations.ofAngle preset.angle)
  preset.walkNesting rotations (.start preset.segmentLength preset.radius) nesting

/-! ## The refinement -/

/-- The plant of some marks. -/
def plantOfMarks (preset : GrammarPreset α) (marks : List (Mark α)) : Drawing α (Plant α) := do
  let organs ← marks.mapM preset.orient
  return Plant.ofOrgans organs

/-- The draws of some marks come before those of the marks after them. -/
theorem plantOfMarks_append (preset : GrammarPreset α) (marks more : List (Mark α)) :
    preset.plantOfMarks (marks ++ more) = do
      let plant ← preset.plantOfMarks marks
      let others ← preset.plantOfMarks more
      return plant ++ others := by
  simp only [plantOfMarks, List.mapM_append, bind_assoc, pure_bind, Plant.ofOrgans_append]

/-- No marks make the empty plant. -/
theorem plantOfMarks_nil (preset : GrammarPreset α) :
    preset.plantOfMarks [] = pure Plant.empty := by
  simp only [plantOfMarks, List.mapM_nil, pure_bind]
  rfl

/-- The mark of a bloom makes a bloom, turned by three draws. -/
theorem plantOfMarks_bloom (preset : GrammarPreset α) (t : Turtle α) :
    preset.plantOfMarks [.bloom t.bloomHere] = do
      let rotation ← Drawing.rotation Scalar.pi
      return ⟨[], [], [⟨t.position, rotation, Scalar.maxOf (t.radius * 3.0) 0.3,
        preset.colorOfBlooms⟩]⟩ := by
  simp only [plantOfMarks, orient, List.mapM_cons, List.mapM_nil, bind_assoc, pure_bind]
  rfl

/-- The marks of a step ahead: the segment, and its leaf where these items follow. -/
theorem plantOfMarks_forward (preset : GrammarPreset α) (w : Walk α) (rest : Nesting)
    {following : List Command} (h : Command.isTip following = rest.isTip) :
    preset.plantOfMarks (w.marks following .forward) = do
      let leaves ← preset.leavesBefore rest w.turtle.ahead w.turtle.length
      return ⟨[w.turtle.segmentAhead], leaves, []⟩ := by
  rw [Walk.marks, leavesBefore, h]
  cases rest.isTip with
  | false =>
    simp only [plantOfMarks, orient, List.mapM_cons, List.mapM_nil, pure_bind,
      Bool.false_eq_true, if_false]
    rfl
  | true =>
    simp only [plantOfMarks, orient, List.mapM_cons, List.mapM_nil, bind_assoc, pure_bind,
      if_true]
    rfl

/-- The turtle with a stack refines the recursive walk. On the items of a branch, with any turtles
remembered and any commands after the end of the branch, it makes the plant of the recursive walk
from the same draws, and goes on with the same turtles remembered. -/
theorem plantOfMarks_trace_append (preset : GrammarPreset α) (rotations : Rotations α)
    (t : Turtle α) (nesting : Nesting) :
    ∃ last : Turtle α, ∀ (opened : List (Turtle α)) (following : List Command),
      IsBranchEnd .pop following →
      preset.plantOfMarks (Walk.trace rotations ⟨t, opened⟩
        (nesting.word.map Command.ofChar ++ following)) = do
        let plant ← preset.walkNesting rotations t nesting
        let others ← preset.plantOfMarks (Walk.trace rotations ⟨last, opened⟩ following)
        return plant ++ others := by
  induction nesting generalizing t with
  | done =>
    refine ⟨t, fun opened following _ => ?_⟩
    simp only [walkNesting, pure_bind, Plant.empty_append, bind_pure]
    rfl
  | branch inner rest ihinner ihrest =>
    obtain ⟨lastInner, hinner⟩ := ihinner t.branched
    obtain ⟨last, hrest⟩ := ihrest t
    refine ⟨last, fun opened following hend => ?_⟩
    have hword : (Nesting.branch inner rest).word.map Command.ofChar ++ following =
        .push :: (inner.word.map Command.ofChar ++
          .pop :: (rest.word.map Command.ofChar ++ following)) := by
      simp [Nesting.word, Command.ofChar]
    have hpop (more : List Command) :
        Walk.trace rotations ⟨lastInner, t :: opened⟩ (.pop :: more) =
          Walk.trace rotations ⟨t, opened⟩ more := rfl
    rw [hword]
    -- Wherever the walk inside the branch ends, `t` is the turtle remembered last, and the close goes
    -- back to it.
    show preset.plantOfMarks (Walk.trace rotations ⟨t.branched, t :: opened⟩ _) = _
    rw [hinner (t :: opened) _ (isBranchEnd_close _), hpop, hrest opened following hend, walkNesting]
    simp only [bind_assoc, pure_bind, Plant.append_assoc]
    rfl
  | symbol c hc rest ih =>
    have hword (following : List Command) :
        (Nesting.symbol c hc rest).word.map Command.ofChar ++ following =
          Command.ofChar c :: (rest.word.map Command.ofChar ++ following) := rfl
    simp only [hword, Walk.trace, plantOfMarks_append]
    cases hcommand : Command.ofChar c with
    | push => exact absurd (Command.symbol_eq hcommand rfl) hc.1
    | pop => exact absurd (Command.symbol_eq hcommand rfl) hc.2
    | forward =>
      have hforward : c = 'F' := Command.symbol_eq hcommand rfl
      obtain ⟨last, hrest⟩ := ih { t with position := t.ahead }
      refine ⟨last, fun opened following hend => ?_⟩
      rw [preset.plantOfMarks_forward _ rest (rest.isTip_commands hend), walkNesting,
        if_pos hforward]
      simp only [Walk.step, hrest opened following hend, bind_assoc, pure_bind,
        Plant.append_assoc]
      rfl
    | bloom =>
      have hbloom : c = '*' := Command.symbol_eq hcommand rfl
      have hforward : c ≠ 'F' := by
        rintro rfl
        cases hcommand
      obtain ⟨last, hrest⟩ := ih t
      refine ⟨last, fun opened following hend => ?_⟩
      rw [Walk.marks, plantOfMarks_bloom, walkNesting, if_neg hforward, if_pos hbloom]
      simp only [Walk.step, hrest opened following hend, bind_assoc, pure_bind,
        Plant.append_assoc]
    | turn turn =>
      obtain ⟨last, hrest⟩ := ih { t with orientation := t.orientation * rotations.quat turn }
      refine ⟨last, fun opened following hend => ?_⟩
      have hmarks (w : Walk α) (more : List Command) : w.marks more (.turn turn) = [] := rfl
      have hwalk : preset.walkNesting rotations t (.symbol c hc rest) =
          preset.walkNesting rotations
            { t with orientation := t.orientation * rotations.quat turn } rest := by
        rw [walkNesting, if_neg (by rintro rfl; cases hcommand), if_neg (by rintro rfl; cases hcommand),
          rotations.ofSymbol?_of_turn hcommand]
      rw [hmarks, plantOfMarks_nil, pure_bind, hwalk]
      simp only [Walk.step, hrest opened following hend, bind_assoc, pure_bind,
        Plant.empty_append]
    | idle =>
      obtain ⟨last, hrest⟩ := ih t
      refine ⟨last, fun opened following hend => ?_⟩
      have hmarks (w : Walk α) (more : List Command) : w.marks more .idle = [] := rfl
      have hwalk : preset.walkNesting rotations t (.symbol c hc rest) =
          preset.walkNesting rotations t rest := by
        rw [walkNesting, if_neg (by rintro rfl; cases hcommand), if_neg (by rintro rfl; cases hcommand),
          rotations.ofSymbol?_of_idle hcommand]
      rw [hmarks, plantOfMarks_nil, pure_bind, hwalk]
      simp only [Walk.step, hrest opened following hend, bind_assoc, pure_bind,
        Plant.empty_append]

/-- The turtle with a stack makes of the word of a nesting tree what the recursive walk makes of the
tree. -/
theorem interpret_word (preset : GrammarPreset α) (nesting : Nesting) :
    preset.interpret nesting.word = preset.interpretNesting nesting := by
  have hwalk (rotations : Rotations α) :
      preset.plantOfMarks (preset.marksOf rotations nesting.word) =
        preset.walkNesting rotations (.start preset.segmentLength preset.radius) nesting := by
    obtain ⟨last, hlast⟩ := preset.plantOfMarks_trace_append rotations
      (.start preset.segmentLength preset.radius) nesting
    have htrace := hlast [] [] isBranchEnd_nil
    rw [List.append_nil] at htrace
    rw [marksOf, htrace, Walk.trace, plantOfMarks_nil]
    simp only [pure_bind, Plant.append_empty, bind_pure]
  unfold interpret interpretNesting
  congr 1
  funext rotations
  exact hwalk rotations

/-- A well bracketed word is spelled by one nesting tree, and stands for the plant that the recursive
walk makes of this tree: the same elements in the same order, the same draws, the same faults. -/
theorem interpret_eq_recursive_walk (preset : GrammarPreset α) {word : List Char}
    (h : WellBracketed word) :
    ∃ nesting : Nesting, (∀ other : Nesting, other.word = word ↔ other = nesting) ∧
      preset.interpret word = preset.interpretNesting nesting := by
  obtain ⟨nesting, honly⟩ := Nesting.exists_unique_nesting h
  refine ⟨nesting, honly, ?_⟩
  rw [← (honly nesting).2 rfl]
  exact preset.interpret_word nesting

/-- The items of `F[+F]F`: a branch to the side between two segments. -/
def sideBranch : Nesting :=
  .symbol 'F' (by decide) <|
    .branch (.symbol '+' (by decide) (.symbol 'F' (by decide) .done)) <|
      .symbol 'F' (by decide) .done

/-- A branch to the side makes three segments, and leaves at the ends of the branch and of the stem;
these take six draws. -/
theorem interpret_sideBranch :
    WellBracketed ['F', '[', '+', 'F', ']', 'F'] ∧
      (Species.flowerPreset (α := Float)).interpret ['F', '[', '+', 'F', ']', 'F'] =
        Species.flowerPreset.interpretNesting sideBranch ∧
      ∃ plant, ((Species.flowerPreset (α := Float)).interpretNesting sideBranch).run
          (.cycle 0 []) 0 = (.ok plant, 6) ∧
        plant.segments.length = 3 ∧ plant.leaves.length = 2 ∧ plant.blooms = [] := by
  have hbracketed : WellBracketed ['F', '[', '+', 'F', ']', 'F'] := by decide
  obtain ⟨nesting, honly, hwalk⟩ :=
    interpret_eq_recursive_walk (Species.flowerPreset (α := Float)) hbracketed
  have htree : sideBranch = nesting := (honly sideBranch).1 rfl
  refine ⟨hbracketed, ?_, _, rfl, rfl, rfl, rfl⟩
  rw [htree]
  exact hwalk

end GrammarPreset

end PlantGrowth
