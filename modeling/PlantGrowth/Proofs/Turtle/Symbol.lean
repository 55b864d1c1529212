import PlantGrowth.Turtle.Trace

/-!
# Symbols in a word

A symbol occurs in a word at a depth, which is the number of branches that are open before it; a
close without an open branch closes none. The symbol and those after it say which marks the turtle
leaves there (`Walk.marks_ofChar`); where it stands and how large it is says the turtle.
-/

set_option autoImplicit false

namespace PlantGrowth

/-! ## Symbols and their commands -/

namespace Command

/-- The symbol that spells a command, for commands with a symbol of their own. -/
def symbol? : Command → Option Char
  | .forward => some 'F'
  | .turn ⟨.yaw, .positive⟩ => some '+'
  | .turn ⟨.yaw, .negative⟩ => some '-'
  | .turn ⟨.pitch, .positive⟩ => some '&'
  | .turn ⟨.pitch, .negative⟩ => some '^'
  | .turn ⟨.roll, .positive⟩ => some '\\'
  | .turn ⟨.roll, .negative⟩ => some '/'
  | .push => some '['
  | .pop => some ']'
  | .bloom => some '*'
  | .idle => none

/-- A command with a symbol of its own is spelled by no other symbol. -/
theorem symbol_eq {c d : Char} {command : Command} (h : ofChar c = command)
    (hsymbol : command.symbol? = some d) : c = d := by
  subst h
  unfold ofChar at hsymbol
  split at hsymbol <;> first | exact Option.some.inj hsymbol | cases hsymbol

/-- Before a symbol a segment is a tip exactly if the symbol is a close or the positive yaw. -/
theorem isTip_ofChar_cons (c : Char) (following : List Command) :
    isTip (ofChar c :: following) = decide (c = ']' ∨ c = '+') := by
  unfold ofChar
  split <;> simp_all [isTip]

end Command

/-! ## Depths of symbols -/

/-- The depth after a symbol. -/
def depthAfter (depth : Nat) (c : Char) : Nat :=
  if c = '[' then depth + 1 else if c = ']' then depth - 1 else depth

/-- A symbol of a word, the depth before it, and the symbols after it. -/
structure Occurrence where
  symbol : Char
  depth : Nat
  following : List Char
  deriving DecidableEq, Repr

namespace Occurrence

/-- The symbols of a word that starts at a depth. -/
def ofWord : Nat → List Char → List Occurrence
  | _, [] => []
  | depth, c :: following => ⟨c, depth, following⟩ :: ofWord (depthAfter depth c) following

/-- Whether a segment that this symbol stands for is a tip: no symbol follows it, or a close or the
positive yaw does. -/
def isTip (o : Occurrence) : Bool :=
  match o.following with
  | [] => true
  | c :: _ => c = ']' ∨ c = '+'

/-- The commands that follow a symbol say whether its segment is a tip. -/
theorem isTip_map_following (o : Occurrence) :
    Command.isTip (o.following.map Command.ofChar) = o.isTip := by
  cases o with
  | mk symbol depth following =>
    cases following with
    | nil => rfl
    | cons c rest => exact Command.isTip_ofChar_cons c _

/-- The steps ahead of a word. -/
def forwards (word : List Char) : List Occurrence :=
  (ofWord 0 word).filter fun o => o.symbol = 'F'

/-- The bloom symbols of a word. -/
def blooms (word : List Char) : List Occurrence :=
  (ofWord 0 word).filter fun o => o.symbol = '*'

end Occurrence

/-! ## The marks of a symbol -/

namespace Mark

variable {α : Type}

/-- The segment that a mark is, if it is one. -/
def segment? : Mark α → Option (Segment α)
  | .segment s => some s
  | _ => none

/-- The site of a leaf that a mark is, if it is one. -/
def leaf? : Mark α → Option (Site α)
  | .leaf site => some site
  | _ => none

/-- The site of a bloom that a mark is, if it is one. -/
def bloom? : Mark α → Option (Site α)
  | .bloom site => some site
  | _ => none

end Mark

namespace Walk

variable {α : Type} [Scalar α]

/-- The marks of a symbol: a segment and perhaps a leaf for a step ahead, a bloom for its symbol,
and none for any other. -/
theorem marks_ofChar (w : Walk α) (o : Occurrence) :
    w.marks (o.following.map Command.ofChar) (Command.ofChar o.symbol) =
      if o.symbol = 'F' then
        if o.isTip then [.segment w.turtle.segmentAhead, .leaf w.turtle.leafAhead]
        else [.segment w.turtle.segmentAhead]
      else if o.symbol = '*' then [.bloom w.turtle.bloomHere]
      else [] := by
  rw [← o.isTip_map_following]
  by_cases hforward : o.symbol = 'F'
  · rw [if_pos hforward, hforward]
    rfl
  · by_cases hbloom : o.symbol = '*'
    · rw [if_neg hforward, if_pos hbloom, hbloom]
      rfl
    · rw [if_neg hforward, if_neg hbloom]
      cases hcommand : Command.ofChar o.symbol with
      | forward => exact absurd (Command.symbol_eq hcommand rfl) hforward
      | bloom => exact absurd (Command.symbol_eq hcommand rfl) hbloom
      | turn turn => rfl
      | push => rfl
      | pop => rfl
      | idle => rfl

/-- Just the symbol of the step ahead leaves a segment. -/
theorem segments_of_marks (w : Walk α) (o : Occurrence) :
    (w.marks (o.following.map Command.ofChar) (Command.ofChar o.symbol)).filterMap
      Mark.segment? = if o.symbol = 'F' then [w.turtle.segmentAhead] else [] := by
  rw [marks_ofChar]
  split
  · split <;> rfl
  · split <;> rfl

/-- Just the symbol of the step ahead leaves a leaf, if it is a tip. -/
theorem leaves_of_marks (w : Walk α) (o : Occurrence) :
    (w.marks (o.following.map Command.ofChar) (Command.ofChar o.symbol)).filterMap Mark.leaf? =
      if o.symbol = 'F' then if o.isTip then [w.turtle.leafAhead] else [] else [] := by
  rw [marks_ofChar]
  split
  · split <;> rfl
  · split <;> rfl

/-- Just the symbol of a bloom leaves a bloom. -/
theorem blooms_of_marks (w : Walk α) (o : Occurrence) :
    (w.marks (o.following.map Command.ofChar) (Command.ofChar o.symbol)).filterMap Mark.bloom? =
      if o.symbol = '*' then [w.turtle.bloomHere] else [] := by
  rw [marks_ofChar]
  split
  case isTrue hforward =>
    have hbloom : o.symbol ≠ '*' := by
      rw [hforward]
      decide
    rw [if_neg hbloom]
    split <;> rfl
  case isFalse => split <;> rfl

/-- What a view of a segment shows, when an invariant of the walk and its depth decides it: the depths
of the steps ahead show the same. -/
theorem map_segments_of_trace {β : Type} {rotations : Rotations α} {P : Nat → Walk α → Prop}
    (view : Segment α → β) (size : Nat → β)
    (hstep : ∀ depth w c, P depth w →
      P (depthAfter depth c) (w.step rotations (Command.ofChar c)))
    (hview : ∀ depth w, P depth w → view w.turtle.segmentAhead = size depth)
    (word : List Char) {depth : Nat} {w : Walk α} (h : P depth w) :
    ((trace rotations w (word.map Command.ofChar)).filterMap Mark.segment?).map view =
      ((Occurrence.ofWord depth word).filter fun o => o.symbol = 'F').map
        fun o => size o.depth := by
  induction word generalizing depth w with
  | nil => rfl
  | cons c rest ih =>
    have hfirst := w.segments_of_marks ⟨c, depth, rest⟩
    have hrest := ih (hstep depth w c h)
    rw [List.map_cons, trace, List.filterMap_append, List.map_append, hfirst, hrest,
      Occurrence.ofWord]
    by_cases hforward : c = 'F'
    · simp [hforward, hview depth w h]
    · simp [hforward]

end Walk

end PlantGrowth
