import PlantGrowth.Text.Utf16

/-!
# UTF-16

The encoding form UTF-16 is a relation of texts and rows of numbers (`IsUtf16`). A text has just one
such row, which shifts and masks on integers without a bound write (`isUtf16_iff`). No unit leaves 16
bits, so the units in words are the same (`map_toNat_units`). A text is read back from its own units and
from no other row (`ofUnits?_eq_some_iff`).
-/

set_option autoImplicit false

namespace PlantGrowth.Text

variable {c : Char} {text : List Char}

/-! ## The encoding form -/

/-- A high and a low surrogate, with ten bits each of the number of a character beyond U+FFFF. -/
structure IsPair (c : Char) (high low : Nat) : Prop where
  high_mem : 0xD800 ≤ high ∧ high < 0xDC00
  low_mem : 0xDC00 ≤ low ∧ low < 0xE000
  toNat_eq : c.toNat = 0x10000 + (high - 0xD800) * 0x400 + (low - 0xDC00)

/-- A text and its encoding: a character up to U+FFFF is the unit of its number, and any other one a
high surrogate followed by a low one. -/
inductive IsUtf16 : List Char → List Nat → Prop where
  | nil : IsUtf16 [] []
  | single {c : Char} {text : List Char} {row : List Nat} (hc : c.toNat ≤ 0xFFFF)
      (rest : IsUtf16 text row) : IsUtf16 (c :: text) (c.toNat :: row)
  | pair {c : Char} {high low : Nat} {text : List Char} {row : List Nat} (hc : IsPair c high low)
      (rest : IsUtf16 text row) : IsUtf16 (c :: text) (high :: low :: row)

/-- Every unit has 16 bits. -/
theorem IsUtf16.lt {row : List Nat} (h : IsUtf16 text row) : ∀ unit ∈ row, unit < 0x10000 := by
  induction h with
  | nil => simp
  | single hc rest ih =>
    rw [List.forall_mem_cons]
    exact ⟨by omega, ih⟩
  | pair hc rest ih =>
    have hhigh := hc.high_mem
    have hlow := hc.low_mem
    rw [List.forall_mem_cons, List.forall_mem_cons]
    exact ⟨by omega, by omega, ih⟩

/-! ## Units on integers -/

namespace Wide

/-- The code units of one character, on integers without a bound. -/
def unitsOf (c : Char) : List Nat :=
  if 0xFFFF < c.toNat then
    let offset := c.toNat - 0x10000
    [0xD800 + (offset >>> 10), 0xDC00 + (offset &&& 0x3FF)]
  else [c.toNat]

/-- The code units of a text, on integers without a bound. -/
def units (text : List Char) : List Nat := text.flatMap unitsOf

/-- The units of the first character come first. -/
theorem units_cons (c : Char) (text : List Char) : units (c :: text) = unitsOf c ++ units text := rfl

/-- A character of the basic plane is its own unit. -/
theorem unitsOf_of_le (hc : c.toNat ≤ 0xFFFF) : unitsOf c = [c.toNat] := by
  rw [unitsOf, if_neg (by omega)]

/-- A shift and a mask split the offset into its upper and its lower ten bits. -/
theorem unitsOf_of_lt (hc : 0xFFFF < c.toNat) :
    unitsOf c = [0xD800 + (c.toNat - 0x10000) / 0x400, 0xDC00 + (c.toNat - 0x10000) % 0x400] := by
  have hupper (n : Nat) : n >>> 10 = n / 0x400 := Nat.shiftRight_eq_div_pow n 10
  have hlower (n : Nat) : n &&& 0x3FF = n % 0x400 := Nat.and_two_pow_sub_one_eq_mod n 10
  simp only [unitsOf, if_pos hc, hupper, hlower]

end Wide

/-- The numbers of characters leave out the surrogates. -/
theorem scalar_toNat (c : Char) : c.toNat < 0xD800 ∨ 0xE000 ≤ c.toNat ∧ c.toNat < 0x110000 := by
  have hvalid : c.toNat.isValidChar := c.valid
  unfold Nat.isValidChar at hvalid
  omega

/-- A character beyond U+FFFF is split into a pair. -/
theorem isPair_of_lt (hc : 0xFFFF < c.toNat) :
    IsPair c (0xD800 + (c.toNat - 0x10000) / 0x400) (0xDC00 + (c.toNat - 0x10000) % 0x400) := by
  have hscalar := scalar_toNat c
  exact ⟨by omega, by omega, by omega⟩

/-- The pair of a character is the one that it is split into. -/
theorem IsPair.unitsOf_eq {high low : Nat} (h : IsPair c high low) :
    Wide.unitsOf c = [high, low] := by
  obtain ⟨hhigh, hlow, hc⟩ := h
  have hupper : 0xD800 + (c.toNat - 0x10000) / 0x400 = high := by omega
  have hlower : 0xDC00 + (c.toNat - 0x10000) % 0x400 = low := by omega
  rw [Wide.unitsOf_of_lt (by omega), hupper, hlower]

/-- The units of a text encode it. -/
theorem isUtf16_units (text : List Char) : IsUtf16 text (Wide.units text) := by
  induction text with
  | nil => exact .nil
  | cons c text ih =>
    rw [Wide.units_cons]
    rcases Nat.lt_or_ge 0xFFFF c.toNat with hc | hc
    · rw [Wide.unitsOf_of_lt hc]
      exact .pair (isPair_of_lt hc) ih
    · rw [Wide.unitsOf_of_le hc]
      exact .single hc ih

/-- The row of units of a text is the only one that encodes it. -/
theorem isUtf16_iff {row : List Nat} : IsUtf16 text row ↔ row = Wide.units text := by
  constructor
  · intro h
    induction h with
    | nil => rfl
    | single hc rest ih => rw [ih, Wide.units_cons, Wide.unitsOf_of_le hc, List.singleton_append]
    | pair hc rest ih => rw [ih, Wide.units_cons, hc.unitsOf_eq, List.cons_append, List.singleton_append]
  · rintro rfl
    exact isUtf16_units text

/-! ## Units in words -/

/-- A number of sixteen bits is the number of its unit. -/
theorem toNat_ofNat_of_lt {n : Nat} (hn : n < 0x10000) : (UInt16.ofNat n).toNat = n := by
  rw [UInt16.toNat_ofNat', Nat.mod_eq_of_lt hn]

/-- The units of a character are the same on numbers and on units. -/
theorem map_toNat_unitsOf (c : Char) : (unitsOf c).map UInt16.toNat = Wide.unitsOf c := by
  rcases Nat.lt_or_ge 0xFFFF c.toNat with hc | hc
  · have hpair := isPair_of_lt hc
    have hhigh := hpair.high_mem
    have hlow := hpair.low_mem
    rw [unitsOf, if_neg (by omega), Wide.unitsOf_of_lt hc, List.map_cons, List.map_singleton,
      toNat_ofNat_of_lt (by omega), toNat_ofNat_of_lt (by omega)]
  · rw [unitsOf, if_pos (by omega), Wide.unitsOf_of_le hc, List.map_singleton,
      toNat_ofNat_of_lt (by omega)]

/-- No unit is cut off where it is written into a word. -/
theorem map_toNat_units (text : List Char) : (units text).map UInt16.toNat = Wide.units text := by
  rw [units, Wide.units, List.map_flatMap]
  simp only [map_toNat_unitsOf]

/-! ## Reading -/

variable {u v : UInt16} {row : List UInt16}

/-- The high halves are the numbers from D800 to DBFF. -/
theorem isHigh_iff (u : UInt16) : isHigh u = true ↔ 0xD800 ≤ u.toNat ∧ u.toNat < 0xDC00 := by
  simp [isHigh, UInt16.le_iff_toNat_le, UInt16.lt_iff_toNat_lt]

/-- The low halves are the numbers from DC00 to DFFF. -/
theorem isLow_iff (u : UInt16) : isLow u = true ↔ 0xDC00 ≤ u.toNat ∧ u.toNat < 0xE000 := by
  simp [isLow, UInt16.le_iff_toNat_le, UInt16.lt_iff_toNat_lt]

/-- A number that is no half and not too large is the number of its character. -/
theorem toNat_ofNat_of_scalar {n : Nat} (hn : n < 0xD800 ∨ 0xE000 ≤ n ∧ n < 0x110000) :
    (Char.ofNat n).toNat = n := by
  have hvalid : n.isValidChar := by
    unfold Nat.isValidChar
    omega
  rw [Char.ofNat, dif_pos hvalid]
  rfl

/-- The surrogates of a character are those that stand for it. -/
theorem isPair_toNat_iff :
    IsPair c u.toNat v.toNat ↔ isHigh u = true ∧ isLow v = true ∧ c = paired u v := by
  rw [isHigh_iff, isLow_iff]
  constructor
  · rintro ⟨hu, hv, hc⟩
    refine ⟨hu, hv, ?_⟩
    rw [paired, ← hc, Char.ofNat_toNat]
  · rintro ⟨hu, hv, hc⟩
    refine ⟨hu, hv, ?_⟩
    rw [hc, paired, toNat_ofNat_of_scalar (by omega)]

/-- A unit that is a character by itself is no surrogate. -/
theorem toNat_eq_toNat_iff :
    c.toNat = u.toNat ↔ isHigh u = false ∧ isLow u = false ∧ c = Char.ofNat u.toNat := by
  rw [← Bool.not_eq_true, ← Bool.not_eq_true, isHigh_iff, isLow_iff]
  constructor
  · intro h
    have hscalar := scalar_toNat c
    refine ⟨by omega, by omega, ?_⟩
    rw [← h, Char.ofNat_toNat]
  · rintro ⟨hhigh, hlow, hc⟩
    have hlt := u.toNat_lt
    rw [hc, toNat_ofNat_of_scalar (by omega)]

/-- A unit that is no half is read as a character of its own. -/
theorem ofUnits?_cons_single (hhigh : isHigh u = false) (hlow : isLow u = false)
    (row : List UInt16) : ofUnits? (u :: row) = (ofUnits? row).map (Char.ofNat u.toNat :: ·) := by
  cases row <;> simp [ofUnits?, hhigh, hlow]

/-- A high half with a low half behind it is read as one character. -/
theorem ofUnits?_cons_pair (hhigh : isHigh u = true) (hlow : isLow v = true) (row : List UInt16) :
    ofUnits? (u :: v :: row) = (ofUnits? row).map (paired u v :: ·) := by
  simp [ofUnits?, hhigh, hlow]

/-- A text is read back from a row that encodes it. -/
theorem ofUnits?_of_isUtf16 {numbers : List Nat} (h : IsUtf16 text numbers)
    (hrow : row.map UInt16.toNat = numbers) : ofUnits? row = some text := by
  induction h generalizing row with
  | nil =>
    rw [List.map_eq_nil_iff.1 hrow]
    rfl
  | single hc rest ih =>
    obtain ⟨u, others, rfl, hu, hothers⟩ := List.map_eq_cons_iff.1 hrow
    obtain ⟨hhigh, hlow, hc⟩ := toNat_eq_toNat_iff.1 hu.symm
    rw [ofUnits?_cons_single hhigh hlow, ih hothers, Option.map_some, hc]
  | pair hc rest ih =>
    obtain ⟨u, behind, rfl, rfl, hbehind⟩ := List.map_eq_cons_iff.1 hrow
    obtain ⟨v, others, rfl, rfl, hothers⟩ := List.map_eq_cons_iff.1 hbehind
    obtain ⟨hhigh, hlow, hpaired⟩ := isPair_toNat_iff.1 hc
    rw [ofUnits?_cons_pair hhigh hlow, ih hothers, Option.map_some, hpaired]

/-- A unit that is no surrogate is a character in front of the text. -/
theorem IsUtf16.cons_single (hhigh : isHigh u = false) (hlow : isLow u = false)
    (rest : IsUtf16 text (row.map UInt16.toNat)) :
    IsUtf16 (Char.ofNat u.toNat :: text) ((u :: row).map UInt16.toNat) := by
  have hc : (Char.ofNat u.toNat).toNat = u.toNat := toNat_eq_toNat_iff.2 ⟨hhigh, hlow, rfl⟩
  have hle : (Char.ofNat u.toNat).toNat ≤ 0xFFFF := by
    rw [hc]
    exact Nat.le_of_lt_succ u.toNat_lt
  have hencoded := IsUtf16.single hle rest
  rwa [hc] at hencoded

/-- A row that is read encodes the text that is read. -/
theorem isUtf16_of_ofUnits? (h : ofUnits? row = some text) :
    IsUtf16 text (row.map UInt16.toNat) := by
  fun_induction ofUnits? row generalizing text with
  | case1 =>
    cases h
    exact .nil
  -- A surrogate without its partner makes the reader refuse the row.
  | case2 u hsurrogate => cases h
  | case3 u hsurrogate =>
    cases h
    rw [Bool.not_eq_true, Bool.or_eq_false_iff] at hsurrogate
    exact .cons_single hsurrogate.1 hsurrogate.2 .nil
  | case4 u v rest hhigh hlow ih =>
    obtain ⟨others, hothers, rfl⟩ := Option.map_eq_some_iff.1 h
    exact .pair (isPair_toNat_iff.2 ⟨hhigh, hlow, rfl⟩) (ih hothers)
  | case5 u v rest hhigh hlow => cases h
  | case6 u v rest hhigh hlow => cases h
  | case7 u v rest hhigh hlow ih =>
    obtain ⟨others, hothers, rfl⟩ := Option.map_eq_some_iff.1 h
    rw [Bool.not_eq_true] at hhigh hlow
    exact .cons_single hhigh hlow (ih hothers)

/-- A text is read from its units and from no other row. -/
theorem ofUnits?_eq_some_iff : ofUnits? row = some text ↔ row = units text := by
  -- Rows of words are equal where their numbers are.
  rw [← List.map_inj_right fun _ _ => UInt16.toNat_inj.1, map_toNat_units, ← isUtf16_iff]
  exact ⟨isUtf16_of_ofUnits?, fun h => ofUnits?_of_isUtf16 h rfl⟩

end PlantGrowth.Text
