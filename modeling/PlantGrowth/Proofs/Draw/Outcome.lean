import PlantGrowth.Draw.Range

/-!
# Outcomes of computations that take draws

What a run of a sequence says about the runs of its parts, and computations whose only faults are
refused draws. A run of such a computation on a source that refuses nothing has a result
(`OnlyRefuses.exists_result`). The angles of a leaf or a bloom are those of three draws that follow
each other (`run_rotation`).
-/

set_option autoImplicit false

namespace PlantGrowth

/-- A source that refuses no draw. -/
def Source.Grants {α : Type} (s : Source α) : Prop := ∀ n, ∃ u, s n = .ok u

namespace Drawing

variable {α β γ δ : Type}

/-- A sequence has a result exactly when its first part has one and the second part, run on from
there, has this result. -/
theorem run_bind_eq_ok_iff {m : Drawing α β} {f : β → Drawing α γ} {s : Source α} {i k : Nat}
    {c : γ} :
    (m >>= f).run s i = (.ok c, k) ↔
      ∃ b j, m.run s i = (.ok b, j) ∧ (f b).run s j = (.ok c, k) := by
  rw [run_bind]
  constructor
  · intro h
    cases hm : m.run s i with
    | mk outcome j =>
      rw [hm] at h
      cases outcome with
      | error e => cases h
      | ok b => exact ⟨b, j, rfl, h⟩
  · rintro ⟨b, j, hm, hf⟩
    rw [hm]
    exact hf

/-- A draw that has a result is granted, and moves the position by one. -/
theorem run_draw_eq_ok_iff {s : Source α} {i j : Nat} {u : α} :
    (draw : Drawing α α).run s i = (.ok u, j) ↔ s i = .ok u ∧ i + 1 = j := by
  rw [run_draw, Prod.mk.injEq]

/-- A known outcome that is a result is that result, at the same position. -/
theorem run_ofExcept_eq_ok_iff {r : Except Fault β} {s : Source α} {i j : Nat} {b : β} :
    (ofExcept r : Drawing α β).run s i = (.ok b, j) ↔ r = .ok b ∧ i = j := by
  rw [run_ofExcept, Prod.mk.injEq]

/-- A function of the result changes neither the fault nor the position. -/
theorem run_map (f : β → γ) (m : Drawing α β) (s : Source α) (i : Nat) :
    (f <$> m).run s i = ((m.run s i).1.map f, (m.run s i).2) := by
  rw [map_eq_pure_bind, run_bind]
  cases m.run s i with
  | mk outcome j => cases outcome <;> rfl

/-- Results may be changed one by one or all together. -/
theorem mapM_map (f : γ → Drawing α β) (g : β → δ) (xs : List γ) :
    xs.mapM (fun x => g <$> f x) = List.map g <$> xs.mapM f := by
  induction xs with
  | nil => simp
  | cons x xs ih =>
    simp only [List.mapM_cons, ih, map_bind, bind_map_left, map_pure, List.map_cons]

/-- What a run shows of its result says that there is one. -/
theorem exists_run_of_view {m : Drawing α β} {view : β → γ} {v : γ} {s : Source α} {i : Nat}
    (h : (m.run s i).1.toOption.map view = some v) :
    ∃ b j, m.run s i = (.ok b, j) ∧ view b = v := by
  cases hrun : m.run s i with
  | mk outcome j =>
    rw [hrun] at h
    cases outcome with
    | error e => cases h
    | ok b => exact ⟨b, j, rfl, Option.some.inj h⟩

/-- A list of computations has as many results as elements. -/
theorem length_of_run_mapM {f : γ → Drawing α β} {xs : List γ} {ys : List β} {s : Source α}
    {i j : Nat} (h : (xs.mapM f).run s i = (.ok ys, j)) : ys.length = xs.length := by
  induction xs generalizing ys i with
  | nil =>
    cases h
    rfl
  | cons x xs ih =>
    rw [List.mapM_cons] at h
    obtain ⟨y, k, -, h⟩ := run_bind_eq_ok_iff.1 h
    obtain ⟨rest, l, hrest, h⟩ := run_bind_eq_ok_iff.1 h
    cases h
    rw [List.length_cons, List.length_cons, ih hrest]

/-- The results of a list begin with those of its beginning. -/
theorem isPrefix_of_run_mapM {f : γ → Drawing α β} {xs xs' : List γ} {ys ys' : List β}
    {s : Source α} {i j k : Nat} (hfront : xs <+: xs')
    (h : (xs.mapM f).run s i = (.ok ys, j)) (h' : (xs'.mapM f).run s i = (.ok ys', k)) :
    ys <+: ys' := by
  obtain ⟨more, rfl⟩ := hfront
  rw [List.mapM_append] at h'
  obtain ⟨first, l, hfirst, hmore⟩ := run_bind_eq_ok_iff.1 h'
  obtain ⟨rest, m, -, hall⟩ := run_bind_eq_ok_iff.1 hmore
  cases h.symm.trans hfirst
  cases hall
  exact List.prefix_append ys rest

/-- A view of results that each element decides without its draws is a view of the elements. -/
theorem filterMap_of_run_mapM {f : γ → Drawing α β} {view : β → Option δ} {view' : γ → Option δ}
    (hview : ∀ x y s i j, (f x).run s i = (.ok y, j) → view y = view' x) {xs : List γ}
    {ys : List β} {s : Source α} {i j : Nat} (h : (xs.mapM f).run s i = (.ok ys, j)) :
    ys.filterMap view = xs.filterMap view' := by
  induction xs generalizing ys i with
  | nil =>
    cases h
    rfl
  | cons x xs ih =>
    rw [List.mapM_cons] at h
    obtain ⟨y, k, hy, h⟩ := run_bind_eq_ok_iff.1 h
    obtain ⟨rest, l, hrest, h⟩ := run_bind_eq_ok_iff.1 h
    cases h
    rw [List.filterMap_cons, List.filterMap_cons, hview x y s i k hy, ih hrest]

/-- A computation whose only faults are refused draws. -/
def OnlyRefuses (m : Drawing α β) : Prop :=
  ∀ s i e j, m.run s i = (.error e, j) → ∃ n, s n = .error e

namespace OnlyRefuses

/-- A value by itself does not fail. -/
protected theorem pure (b : β) : OnlyRefuses (pure b : Drawing α β) := by
  intro s i e j h
  cases h

/-- A single draw fails only where it is refused. -/
protected theorem draw : OnlyRefuses (draw : Drawing α α) := by
  intro s i e j h
  exact ⟨i, congrArg Prod.fst h⟩

/-- What fails only where a draw is refused does so one after the other, too. -/
protected theorem bind {m : Drawing α β} {f : β → Drawing α γ} (hm : OnlyRefuses m)
    (hf : ∀ b, OnlyRefuses (f b)) : OnlyRefuses (m >>= f) := by
  intro s i e j h
  rw [run_bind] at h
  cases hrun : m.run s i with
  | mk outcome k =>
    rw [hrun] at h
    cases outcome with
    | error d =>
      cases h
      exact hm s i e j hrun
    | ok b => exact hf b s k e j h

/-- What fails only where a draw is refused does so for each element of a list, too. -/
protected theorem mapM {f : γ → Drawing α β} (xs : List γ) (hf : ∀ x, OnlyRefuses (f x)) :
    OnlyRefuses (xs.mapM f) := by
  induction xs with
  | nil => exact .pure []
  | cons x xs ih =>
    rw [List.mapM_cons]
    exact (hf x).bind fun y => ih.bind fun rest => .pure (y :: rest)

/-- A run has a result, or it ends with the fault of a refused draw. -/
theorem result_or_refused {m : Drawing α β} (hm : OnlyRefuses m) (s : Source α) (i : Nat) :
    (∃ b j, m.run s i = (.ok b, j)) ∨ ∃ n e j, s n = .error e ∧ m.run s i = (.error e, j) := by
  cases hrun : m.run s i with
  | mk outcome j =>
    cases outcome with
    | ok b => exact .inl ⟨b, j, rfl⟩
    | error e =>
      obtain ⟨n, hn⟩ := hm s i e j hrun
      exact .inr ⟨n, e, j, hn, rfl⟩

/-- On a source that refuses nothing there is a result. -/
theorem exists_result {m : Drawing α β} (hm : OnlyRefuses m) {s : Source α} (hs : s.Grants)
    (i : Nat) : ∃ b j, m.run s i = (.ok b, j) := by
  refine (hm.result_or_refused s i).resolve_right ?_
  rintro ⟨n, e, j, hn, -⟩
  obtain ⟨u, hu⟩ := hs n
  cases hu.symm.trans hn

/-- A number around zero fails only where its draw is refused. -/
protected theorem aroundZero [Scalar α] (spread : α) : OnlyRefuses (aroundZero spread) :=
  OnlyRefuses.draw.bind fun _ => .pure _

/-- A rotation fails only where one of its draws is refused. -/
protected theorem rotation [Scalar α] (spread : α) : OnlyRefuses (rotation spread) :=
  (OnlyRefuses.aroundZero spread).bind fun _ =>
    (OnlyRefuses.aroundZero spread).bind fun _ =>
      (OnlyRefuses.aroundZero spread).bind fun _ => .pure _

end OnlyRefuses

end Drawing

/-! ## Angles -/

variable {α : Type} [Scalar α]

/-- Three angles around zero, read off three draws that follow each other. -/
def anglesFrom (u : Nat → α) (n : Nat) (spread : α) : Vec3 α :=
  ⟨(u n - 0.5) * spread, (u (n + 1) - 0.5) * spread, (u (n + 2) - 0.5) * spread⟩

/-- Three granted draws make a rotation. -/
theorem Drawing.run_rotation {s : Source α} {i : Nat} {u : Nat → α} {n : Nat}
    (hs : ∀ k < 3, s (i + k) = .ok (u (n + k))) (spread : α) :
    (Drawing.rotation spread).run s i = (.ok (anglesFrom u n spread), i + 3) := by
  have hfirst : s i = .ok (u n) := hs 0 (by decide)
  have hsecond : s (i + 1) = .ok (u (n + 1)) := hs 1 (by decide)
  have hthird : s (i + 1 + 1) = .ok (u (n + 2)) := hs 2 (by decide)
  simp only [rotation, aroundZero, bind_assoc, pure_bind, run_bind, run_draw, hfirst, hsecond,
    hthird, run_pure]
  rfl

end PlantGrowth
