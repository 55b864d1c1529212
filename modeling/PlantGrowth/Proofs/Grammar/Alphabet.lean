import PlantGrowth.Proofs.Grammar.Unwritten

/-!
# The alphabet of an expansion

An expansion writes only symbols of the texts of its rules. So a set of symbols that holds those of the
texts and those of the first word holds those of every word that is made of it, in any number of
generations and by any draws (`Rules.forall_mem_of_run_expand`).
-/

set_option autoImplicit false

namespace PlantGrowth.Rules

variable {α : Type} [Scalar α] {rules : Rules} {randomness : α} {P : Char → Prop} {s : Source α}
  {i j : Nat}

/-- All symbols of the texts of the rules have a property. -/
def Writes (rules : Rules) (P : Char → Prop) : Prop :=
  ∀ symbol text, rules.HasRule symbol text → ∀ c ∈ text.toList, P c

/-- What is written for an allowed symbol is allowed. -/
theorem forall_mem_of_run_successor (hwrites : rules.Writes P) {symbol : Char} (hsymbol : P symbol)
    {part : List Char} (h : (rules.successor randomness symbol).run s i = (.ok part, j)) :
    ∀ c ∈ part, P c := by
  rcases mem_of_run_successor h with ⟨-, rfl⟩ | ⟨text, hrule, hpart⟩
  · exact List.forall_mem_singleton.2 hsymbol
  · exact fun c hc => hwrites symbol text hrule c (hpart c hc)

/-- The next generation of an allowed word is allowed. -/
theorem forall_mem_of_run_nextGeneration (hwrites : rules.Writes P) {word next : List Char}
    (hword : ∀ c ∈ word, P c)
    (h : (rules.nextGeneration randomness word).run s i = (.ok next, j)) : ∀ c ∈ next, P c := by
  induction word generalizing next i with
  | nil =>
    cases h
    exact List.forall_mem_nil P
  | cons symbol word ih =>
    rw [nextGeneration_cons] at h
    obtain ⟨part, k, hpart, h⟩ := Drawing.run_bind_eq_ok_iff.1 h
    obtain ⟨rest, l, hrest, h⟩ := Drawing.run_bind_eq_ok_iff.1 h
    cases h
    obtain ⟨hsymbol, hword⟩ := List.forall_mem_cons.1 hword
    exact List.forall_mem_append.2
      ⟨forall_mem_of_run_successor hwrites hsymbol hpart, ih hword hrest⟩

/-- No expansion leaves the alphabet of its first word and its rules. -/
theorem forall_mem_of_run_expand (hwrites : rules.Writes P) {generations : Nat}
    {word result : List Char} (hword : ∀ c ∈ word, P c)
    (h : (rules.expand randomness generations word).run s i = (.ok result, j)) :
    ∀ c ∈ result, P c := by
  induction generations generalizing word i with
  | zero =>
    cases h
    exact hword
  | succ generations ih =>
    rw [expand_succ] at h
    obtain ⟨next, k, hnext, h⟩ := Drawing.run_bind_eq_ok_iff.1 h
    exact ih (forall_mem_of_run_nextGeneration hwrites hword hnext) h

end PlantGrowth.Rules
