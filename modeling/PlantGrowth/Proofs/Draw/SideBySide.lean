import PlantGrowth.Proofs.Draw.Outcome

/-!
# Two runs side by side

Two computations on two sources are alike when related draws lead to related results, or to the same
fault, after the same number of draws. The relation on draws says what the sources have in common:
that they agree (`Eq`), or only that neither refuses (`BothGranted`). Being alike is closed
under sequencing (`Alike.bind`, `Alike.mapM`), so it is shown part by part.
-/

set_option autoImplicit false

namespace PlantGrowth

variable {α β γ δ ε : Type}

/-- Both draws are granted; they may differ. -/
def BothGranted (d d' : Except Fault α) : Prop := (∃ u, d = .ok u) ∧ ∃ u', d' = .ok u'

/-- The same fault, or related results. -/
def OutcomesAlike (R : β → γ → Prop) : Except Fault β → Except Fault γ → Prop
  | .ok b, .ok c => R b c
  | .error e, .error e' => e = e'
  | _, _ => False

namespace Drawing

/-- On two sources whose next `n` draws are related one by one, both computations take the same
number of these draws, and then have the same fault or related results. -/
def Alike (D : Except Fault α → Except Fault α → Prop) (n : Nat) (R : β → γ → Prop)
    (m : Drawing α β) (m' : Drawing α γ) : Prop :=
  ∀ (s s' : Source α) (i i' : Nat), (∀ k < n, D (s (i + k)) (s' (i' + k))) →
    ∃ taken ≤ n, ∃ outcome outcome', m.run s i = (outcome, i + taken) ∧
      m'.run s' i' = (outcome', i' + taken) ∧ OutcomesAlike R outcome outcome'

namespace Alike

variable {D : Except Fault α → Except Fault α → Prop} {n p : Nat} {R : β → γ → Prop}

/-- Values that are related are alike without a draw. -/
protected theorem pure {b : β} {c : γ} (h : R b c) : Alike D 0 R (pure b) (pure c) :=
  fun _ _ _ _ _ => ⟨0, Nat.le_refl 0, .ok b, .ok c, rfl, rfl, h⟩

/-- A known outcome is like itself without a draw. -/
protected theorem ofExcept (r : Except Fault β) : Alike D 0 Eq (ofExcept r) (ofExcept r) := by
  intro s s' i i' _
  refine ⟨0, Nat.le_refl 0, r, r, rfl, rfl, ?_⟩
  cases r with
  | error e => rfl
  | ok b => rfl

/-- A draw is like a draw where the outcomes of the two sources are. -/
protected theorem draw {R : α → α → Prop} (h : ∀ d d', D d d' → OutcomesAlike R d d') :
    Alike D 1 R draw draw :=
  fun s s' i i' hdraws =>
    ⟨1, Nat.le_refl 1, s i, s' i', rfl, rfl, h _ _ (hdraws 0 Nat.one_pos)⟩

/-- The second parts go on with the draws that the first parts have left. -/
protected theorem bind {R' : δ → ε → Prop} {m : Drawing α β} {m' : Drawing α γ}
    {f : β → Drawing α δ} {f' : γ → Drawing α ε} (hm : Alike D n R m m')
    (hf : ∀ b c, R b c → Alike D p R' (f b) (f' c)) :
    Alike D (n + p) R' (m >>= f) (m' >>= f') := by
  intro s s' i i' hdraws
  obtain ⟨taken, htaken, outcome, outcome', hrun, hrun', halike⟩ :=
    hm s s' i i' fun k hk => hdraws k (by omega)
  cases outcome with
  | error e =>
    cases outcome' with
    | ok c => exact halike.elim
    | error e' =>
      exact ⟨taken, by omega, .error e, .error e', run_bind_of_error hrun,
        run_bind_of_error hrun', halike⟩
  | ok b =>
    cases outcome' with
    | error e' => exact halike.elim
    | ok c =>
      have hrest : ∀ k < p, D (s (i + taken + k)) (s' (i' + taken + k)) := by
        intro k hk
        rw [Nat.add_assoc, Nat.add_assoc]
        exact hdraws (taken + k) (by omega)
      obtain ⟨more, hmore, last, last', hlast, hlast', hend⟩ :=
        hf b c halike s s' (i + taken) (i' + taken) hrest
      refine ⟨taken + more, by omega, last, last', ?_, ?_, hend⟩
      · rw [run_bind_of_ok hrun, hlast, Nat.add_assoc]
      · rw [run_bind_of_ok hrun', hlast', Nat.add_assoc]

/-- A bound on the draws may be raised. -/
protected theorem mono {m : Drawing α β} {m' : Drawing α γ} (hm : Alike D n R m m')
    (h : n ≤ p) : Alike D p R m m' := by
  intro s s' i i' hdraws
  obtain ⟨taken, htaken, hrun⟩ := hm s s' i i' fun k hk => hdraws k (Nat.lt_of_lt_of_le hk h)
  exact ⟨taken, Nat.le_trans htaken h, hrun⟩

/-- The elements of one list in turn. What their results have in common is told by a view of each.
-/
protected theorem mapM {view : β → ε} {view' : γ → ε} {f : δ → Drawing α β}
    {f' : δ → Drawing α γ} (hf : ∀ x, Alike D n (fun b c => view b = view' c) (f x) (f' x))
    (xs : List δ) :
    Alike D (xs.length * n) (fun bs cs => bs.map view = cs.map view') (xs.mapM f)
      (xs.mapM f') := by
  induction xs with
  | nil =>
    rw [List.length_nil, Nat.zero_mul]
    exact .pure rfl
  | cons x xs ih =>
    have hcons : Alike D (n + (xs.length * n + 0)) (fun bs cs => bs.map view = cs.map view')
        ((x :: xs).mapM f) ((x :: xs).mapM f') := by
      rw [List.mapM_cons, List.mapM_cons]
      refine (hf x).bind fun b c hfirst => ih.bind fun bs cs hrest => .pure ?_
      rw [List.map_cons, List.map_cons, hfirst, hrest]
    refine hcons.mono ?_
    rw [List.length_cons, Nat.add_mul]
    omega

/-- On sources that refuse nothing, two computations that are alike have related results, if one of
them fails only where a draw is refused. -/
theorem exists_results {m : Drawing α β} {m' : Drawing α γ} (hm : Alike BothGranted n R m m')
    (hrefuses : m.OnlyRefuses) {s s' : Source α} (hs : s.Grants) (hs' : s'.Grants) (i i' : Nat) :
    ∃ b c taken, m.run s i = (.ok b, i + taken) ∧ m'.run s' i' = (.ok c, i' + taken) ∧ R b c := by
  obtain ⟨taken, -, outcome, outcome', hrun, hrun', halike⟩ :=
    hm s s' i i' fun k _ => ⟨hs (i + k), hs' (i' + k)⟩
  obtain ⟨b, j, hresult⟩ := hrefuses.exists_result hs i
  rw [hresult] at hrun
  cases hrun
  cases outcome' with
  | error e => exact halike.elim
  | ok c => exact ⟨b, c, taken, hresult, hrun', halike⟩

end Alike

end Drawing

end PlantGrowth
