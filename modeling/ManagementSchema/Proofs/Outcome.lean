-- Steps that may fail, run one after the other: when the run ends well, when
-- it ends with an error, and what one step run over a whole list gives.
import Mathlib.Data.List.Forall2

namespace ManagementSchema.Outcome

variable {ε α β : Type}

/-! ## Two steps -/

@[simp] theorem throw_eq_error (e : ε) : (throw e : Except ε α) = .error e := rfl

@[simp] theorem pure_eq_ok (a : α) : (pure a : Except ε α) = .ok a := rfl

@[simp] theorem error_bind (e : ε) (f : α → Except ε β) : (.error e >>= f) = .error e := rfl

@[simp] theorem ok_bind (a : α) (f : α → Except ε β) : (.ok a >>= f) = f a := rfl

theorem bind_eq_ok {x : Except ε α} {f : α → Except ε β} {b : β} :
    (x >>= f) = .ok b ↔ ∃ a, x = .ok a ∧ f a = .ok b := by
  cases x <;> simp [bind, Except.bind]

/-- What follows a check is reached when the check does not stop the run. -/
theorem check_bind_eq_ok {p : Prop} [Decidable p] {e : ε} {f : β → Except ε α} {x : Except ε α}
    {a : α} : (if p then throw e >>= f else x) = .ok a ↔ ¬ p ∧ x = .ok a := by
  split <;> simp_all

/-- The error of two steps is the one of the first step, or else of the second. -/
theorem bind_eq_error {x : Except ε α} {f : α → Except ε β} {e : ε} :
    (x >>= f) = .error e ↔ x = .error e ∨ ∃ a, x = .ok a ∧ f a = .error e := by
  cases x <;> simp [bind, Except.bind]

theorem map_eq_ok {x : Except ε α} {f : α → β} {b : β} :
    x.map f = .ok b ↔ ∃ a, x = .ok a ∧ f a = b := by
  cases x <;> simp [Except.map]

theorem map_eq_error {x : Except ε α} {f : α → β} {e : ε} :
    x.map f = .error e ↔ x = .error e := by
  cases x <;> simp [Except.map]

theorem mapError_eq_ok {x : Except ε α} {f : ε → β} {a : α} :
    x.mapError f = .ok a ↔ x = .ok a := by
  cases x <;> simp [Except.mapError]

theorem mapError_eq_error {x : Except ε α} {f : ε → β} {e : β} :
    x.mapError f = .error e ↔ ∃ e', x = .error e' ∧ f e' = e := by
  cases x <;> simp [Except.mapError]

/-! ## One step over a list -/

/-- A run over a list ends well when each step does, and the results stand in the order of the
list. -/
theorem mapM_eq_ok {f : α → Except ε β} {xs : List α} {ys : List β} :
    xs.mapM f = .ok ys ↔ List.Forall₂ (fun x y => f x = .ok y) xs ys := by
  induction xs generalizing ys with
  | nil => cases ys <;> simp
  | cons x xs ih =>
    rw [List.mapM_cons]
    simp only [bind_eq_ok, ih, pure_eq_ok, Except.ok.injEq]
    refine ⟨?_, ?_⟩
    · rintro ⟨y, hy, rest, hrest, rfl⟩
      exact .cons hy hrest
    · rintro (_ | ⟨hy, hrest⟩)
      exact ⟨_, hy, _, hrest, rfl⟩

theorem exists_of_mem_mapM {f : α → Except ε β} {xs : List α} {ys : List β}
    (h : xs.mapM f = .ok ys) : ∀ y ∈ ys, ∃ x ∈ xs, f x = .ok y := by
  rw [mapM_eq_ok] at h
  induction h with
  | nil => simp
  | cons hxy _ ih =>
    intro y hy
    rcases List.mem_cons.mp hy with rfl | hy
    · exact ⟨_, List.mem_cons_self, hxy⟩
    · obtain ⟨x, hx, hfx⟩ := ih y hy
      exact ⟨x, List.mem_cons_of_mem _ hx, hfx⟩

/-- A run over a list ends with the error of the first item whose step fails. -/
theorem mapM_eq_error {f : α → Except ε β} {xs : List α} {e : ε} :
    xs.mapM f = .error e ↔ ∃ before x rest, xs = before ++ x :: rest ∧
      (∀ y ∈ before, ∃ b, f y = .ok b) ∧ f x = .error e := by
  induction xs with
  | nil => simp
  | cons first others ih =>
    rw [List.mapM_cons]
    refine ⟨?_, ?_⟩
    · intro h
      rcases bind_eq_error.mp h with hfirst | ⟨b, hfirst, hothers⟩
      · exact ⟨[], first, others, rfl, by simp, hfirst⟩
      · have hrun : others.mapM f = .error e := by simpa [bind_eq_error] using hothers
        obtain ⟨before, x, rest, rfl, hbefore, hx⟩ := ih.mp hrun
        refine ⟨first :: before, x, rest, rfl, ?_, hx⟩
        rw [List.forall_mem_cons]
        exact ⟨⟨b, hfirst⟩, hbefore⟩
    · rintro ⟨before, x, rest, heq, hbefore, hx⟩
      cases before with
      | nil =>
        cases heq
        rw [hx, error_bind]
      | cons y before =>
        cases heq
        rw [List.forall_mem_cons] at hbefore
        obtain ⟨⟨b, hb⟩, hbefore⟩ := hbefore
        rw [hb, ok_bind, ih.mpr ⟨before, x, rest, rfl, hbefore, hx⟩, error_bind]

/-- A run over a list fails just if one of the steps does. -/
theorem mapM_fails_iff {f : α → Except ε β} {xs : List α} :
    (∃ e, xs.mapM f = .error e) ↔ ∃ x ∈ xs, ∃ e, f x = .error e := by
  induction xs with
  | nil => simp
  | cons x xs ih =>
    rw [List.exists_mem_cons_iff, ← ih]
    simp only [List.mapM_cons, bind_eq_error, pure_eq_ok]
    rcases f x with e | b
    · simp
    · simp

/-- What holds at the start of a run over a list, and is kept by each step that ends well, holds at
the end. -/
theorem foldlM_keeps {f : β → α → Except ε β} {P : β → Prop} {xs : List α} {b b' : β}
    (hstep : ∀ x ∈ xs, ∀ b b', P b → f b x = .ok b' → P b') (hb : P b)
    (h : xs.foldlM f b = .ok b') : P b' := by
  induction xs generalizing b with
  | nil =>
    cases h
    exact hb
  | cons x xs ih =>
    rw [List.foldlM_cons, bind_eq_ok] at h
    obtain ⟨middle, hx, hrest⟩ := h
    rw [List.forall_mem_cons] at hstep
    exact ih hstep.2 (hstep.1 b middle hb hx) hrest

/-- A run over a list ends with the error of the first step that fails. -/
theorem foldlM_eq_error {f : β → α → Except ε β} {xs : List α} {b : β} {e : ε} :
    xs.foldlM f b = .error e ↔ ∃ before x rest b', xs = before ++ x :: rest ∧
      before.foldlM f b = .ok b' ∧ f b' x = .error e := by
  refine ⟨?_, ?_⟩
  · intro h
    induction xs generalizing b with
    | nil => cases h
    | cons x xs ih =>
      rw [List.foldlM_cons] at h
      rcases bind_eq_error.mp h with hx | ⟨middle, hx, hrest⟩
      · exact ⟨[], x, xs, b, rfl, rfl, hx⟩
      · obtain ⟨before, y, rest, b', rfl, hbefore, hy⟩ := ih hrest
        refine ⟨x :: before, y, rest, b', rfl, ?_, hy⟩
        rw [List.foldlM_cons, hx, ok_bind, hbefore]
  · rintro ⟨before, x, rest, b', rfl, hbefore, hx⟩
    rw [List.foldlM_append, hbefore, ok_bind, List.foldlM_cons, hx, error_bind]

/-! ## Checks in a fixed order -/

/-- The error of the first check of a list that fails; each check fails with at most one error. -/
inductive FirstFailure {κ : Type} (Fails : κ → ε → Prop) : List κ → ε → Prop
  | here {k : κ} {rest : List κ} {e : ε} : Fails k e → FirstFailure Fails (k :: rest) e
  | later {k : κ} {rest : List κ} {e : ε} :
      (∀ e, ¬ Fails k e) → FirstFailure Fails rest e → FirstFailure Fails (k :: rest) e

namespace FirstFailure

variable {κ ι : Type} {Fails : κ → ε → Prop} {ks : List κ} {e : ε}

/-- Some check of the list fails with the error. -/
theorem exists_fails (h : FirstFailure Fails ks e) : ∃ k ∈ ks, Fails k e := by
  induction h with
  | here hk => exact ⟨_, List.mem_cons_self, hk⟩
  | later _ _ ih =>
    obtain ⟨k, hmem, hk⟩ := ih
    exact ⟨k, List.mem_cons_of_mem _ hmem, hk⟩

/-- There is a first failure unless no check of the list fails. -/
theorem none_iff : (∀ e, ¬ FirstFailure Fails ks e) ↔ ∀ k ∈ ks, ∀ e, ¬ Fails k e := by
  refine ⟨?_, ?_⟩
  · intro h
    induction ks with
    | nil => simp
    | cons k rest ih =>
      have hk : ∀ e, ¬ Fails k e := fun e hk => h e (.here hk)
      intro j hj
      rcases List.mem_cons.mp hj with rfl | hj
      · exact hk
      · exact ih (fun e hrest => h e (.later hk hrest)) j hj
  · intro h e hfirst
    obtain ⟨k, hmem, hk⟩ := hfirst.exists_fails
    exact h k hmem e hk

theorem congr {Other : κ → ε → Prop} (h : ∀ k ∈ ks, ∀ e, Fails k e ↔ Other k e) :
    FirstFailure Fails ks e ↔ FirstFailure Other ks e := by
  induction ks with
  | nil => constructor <;> rintro (_ | _)
  | cons k rest ih =>
    have hk := h k List.mem_cons_self
    have hrest := ih fun j hj => h j (List.mem_cons_of_mem _ hj)
    refine ⟨?_, ?_⟩
    · rintro (hfail | ⟨hnone, hlater⟩)
      · exact .here ((hk e).mp hfail)
      · exact .later (fun e hfail => hnone e ((hk e).mpr hfail)) (hrest.mp hlater)
    · rintro (hfail | ⟨hnone, hlater⟩)
      · exact .here ((hk e).mpr hfail)
      · exact .later (fun e hfail => hnone e ((hk e).mp hfail)) (hrest.mpr hlater)

theorem map_iff {js : List ι} {g : ι → κ} :
    FirstFailure Fails (js.map g) e ↔ FirstFailure (fun j => Fails (g j)) js e := by
  induction js with
  | nil => constructor <;> rintro (_ | _)
  | cons j rest ih =>
    rw [List.map_cons]
    refine ⟨?_, ?_⟩
    · rintro (hfail | ⟨hnone, hlater⟩)
      · exact .here hfail
      · exact .later hnone (ih.mp hlater)
    · rintro (hfail | ⟨hnone, hlater⟩)
      · exact .here hfail
      · exact .later hnone (ih.mpr hlater)

/-- A step that fails as the first check does, followed by steps that fail as the other checks
do. -/
theorem bind_iff {k : κ} {x : Except ε α} {f : α → Except ε β}
    (hx : ∀ e, x = .error e ↔ Fails k e)
    (hf : ∀ a, x = .ok a → (f a = .error e ↔ FirstFailure Fails ks e)) :
    (x >>= f) = .error e ↔ FirstFailure Fails (k :: ks) e := by
  cases x with
  | error first =>
    have hfirst : Fails k first := (hx first).mp rfl
    rw [error_bind]
    refine ⟨?_, ?_⟩
    · rintro ⟨⟩
      exact .here hfirst
    · rintro (hfail | ⟨hnone, _⟩)
      · cases (hx e).mpr hfail
        rfl
      · exact absurd hfirst (hnone first)
  | ok a =>
    have hnone : ∀ e, ¬ Fails k e := fun e hfail => by cases (hx e).mpr hfail
    rw [ok_bind, hf a rfl]
    refine ⟨?_, ?_⟩
    · exact .later hnone
    · rintro (hfail | ⟨_, hlater⟩)
      · exact absurd hfail (hnone e)
      · exact hlater

/-- Where the checks stand in an order, the first failure is the one that has none before it. -/
theorem iff_of_pairwise {before : κ → κ → Prop} (hasymm : ∀ j k, before j k → ¬ before k j)
    (h : ks.Pairwise before) : FirstFailure Fails ks e ↔
      ∃ k ∈ ks, Fails k e ∧ ∀ j ∈ ks, before j k → ∀ e, ¬ Fails j e := by
  induction ks with
  | nil =>
    refine ⟨?_, ?_⟩
    · rintro ⟨⟩
    · rintro ⟨_, ⟨⟩, _⟩
  | cons first rest ih =>
    rw [List.pairwise_cons] at h
    obtain ⟨hfirst, hrest⟩ := h
    refine ⟨?_, ?_⟩
    · rintro (hfails | ⟨hnone, hlater⟩)
      · refine ⟨first, List.mem_cons_self, hfails, ?_⟩
        intro j hj hbefore
        rcases List.mem_cons.mp hj with rfl | hj
        · exact absurd hbefore (hasymm _ _ hbefore)
        · exact absurd hbefore (hasymm _ _ (hfirst j hj))
      · obtain ⟨k, hk, hfails, hleast⟩ := (ih hrest).mp hlater
        refine ⟨k, List.mem_cons_of_mem _ hk, hfails, ?_⟩
        intro j hj hbefore
        rcases List.mem_cons.mp hj with rfl | hj
        · exact hnone
        · exact hleast j hj hbefore
    · rintro ⟨k, hk, hfails, hleast⟩
      rcases List.mem_cons.mp hk with rfl | hk
      · exact .here hfails
      · refine .later (hleast first List.mem_cons_self (hfirst k hk)) ((ih hrest).mpr ?_)
        exact ⟨k, hk, hfails, fun j hj => hleast j (List.mem_cons_of_mem _ hj)⟩

end FirstFailure

end ManagementSchema.Outcome
