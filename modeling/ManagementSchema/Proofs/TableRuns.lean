-- Runs of changes on a table. Each change in place does as much as the change
-- as a whole, or nothing when it fails, and a table that was built stays one.
-- So what holds of built tables holds after any run.
import ManagementSchema.Proofs.TableKeys
import ManagementSchema.Value.Change

namespace ManagementSchema

namespace Change

open Table

/-! ## One change -/

/-- The change as a whole: the answer and the table after it, or an error and no table. -/
def result (t : Table) : Change → Except DataError (Option Record × Table)
  | put row => (t.put row).map fun t' => (none, t')
  | putAll batch => (t.putAll batch).map fun t' => (none, t')
  | remove key => t.remove key
  | clear => .ok (none, t.clear)

theorem on_writes (staged : List (Key × Record)) (t : Table) :
    (forIn staged PUnit.unit fun (key, row) _ => do
      write key row
      pure (ForInStep.yield PUnit.unit) : InPlace PUnit).on t =
        (.ok PUnit.unit, ⟨t.type, t.rows ++ staged⟩) := by
  induction staged generalizing t with
  | nil =>
    obtain ⟨type, rows⟩ := t
    simp
  | cons entry rest ih =>
    obtain ⟨key, row⟩ := entry
    rw [List.forIn_cons]
    simp only [InPlace.on_bind, on_write, InPlace.on_pure]
    rw [ih]
    simp

/-- In place, a change that fails has written nothing. -/
theorem step_eq (t : Table) (change : Change) :
    change.step t =
      match change.result t with
      | .ok (answer, t') => (.ok answer, t')
      | .error e => (.error e, t) := by
  cases change with
  | put row =>
    simp only [step, make, result, Table.put, InPlace.on_bind, InPlace.on_get, InPlace.on_liftM]
    rcases t.type.keyOf row with e | key
    · rfl
    · simp only [Outcome.ok_bind]
      split
      · rfl
      · rfl
  | putAll batch =>
    simp only [step, make, result, Table.putAll, InPlace.on_bind, InPlace.on_get,
      InPlace.on_liftM]
    -- The whole batch is staged before the first write, so an error finds nothing written.
    rcases t.stage [] batch with e | staged
    · rfl
    · simp only [on_writes]
      rfl
  | remove key =>
    simp only [step, make, result, Table.remove, InPlace.on_bind, InPlace.on_get,
      InPlace.on_liftM]
    rcases t.get key with e | row
    · rfl
    · rfl
  | clear => rfl

theorem step_of_error {t : Table} {change : Change} {e : DataError}
    (h : (change.step t).1 = .error e) : (change.step t).2 = t := by
  rw [step_eq] at h ⊢
  rcases hresult : change.result t with _ | ⟨answer, t'⟩
  · rfl
  · rw [hresult] at h
    cases h

/-- The rows that are put in are built. A key to be removed may be any. -/
def Built : Change → Prop
  | put row => (Value.record row).Built
  | putAll batch => ∀ row ∈ batch, (Value.record row).Built
  | remove _ | clear => True

theorem built_result {t t' : Table} {change : Change} {answer : Option Record}
    (ht : (Value.table t).Built) (hchange : change.Built)
    (h : change.result t = .ok (answer, t')) : (Value.table t').Built ∧ t'.type = t.type := by
  cases change with
  | put row =>
    obtain ⟨_, hput, ⟨⟩⟩ := Outcome.map_eq_ok.mp h
    obtain ⟨key, _, _, rfl⟩ := Table.put_eq_ok.mp hput
    exact ⟨.put ht hchange hput, rfl⟩
  | putAll batch =>
    obtain ⟨_, hputAll, ⟨⟩⟩ := Outcome.map_eq_ok.mp h
    refine ⟨.putAll ht hchange hputAll, ?_⟩
    obtain ⟨staged, _, rfl⟩ := Outcome.map_eq_ok.mp hputAll
    rfl
  | remove key =>
    obtain ⟨_, rfl⟩ := Table.remove_eq_ok.mp h
    exact ⟨.remove ht h, rfl⟩
  | clear =>
    cases h
    exact ⟨.clear ht, rfl⟩

/-- One change, be it made or not, leaves a built table built, with the type that it had. -/
theorem built_step {t : Table} {change : Change} (ht : (Value.table t).Built)
    (hchange : change.Built) :
    (Value.table (change.step t).2).Built ∧ (change.step t).2.type = t.type := by
  rw [step_eq]
  rcases hresult : change.result t with e | ⟨answer, t'⟩
  · exact ⟨ht, rfl⟩
  · exact built_result ht hchange hresult

end Change

namespace Table

/-! ## Whole runs -/

/-- So does a whole run. -/
theorem built_after {t : Table} {changes : List Change} (ht : (Value.table t).Built)
    (hchanges : ∀ change ∈ changes, change.Built) :
    (Value.table (t.after changes)).Built ∧ (t.after changes).type = t.type := by
  unfold after
  induction changes generalizing t with
  | nil => exact ⟨ht, rfl⟩
  | cons change rest ih =>
    rw [List.forall_mem_cons] at hchanges
    obtain ⟨hstep, htype⟩ := Change.built_step ht hchanges.1
    obtain ⟨hafter, hsame⟩ := ih hstep hchanges.2
    rw [List.foldl_cons]
    exact ⟨hafter, hsame.trans htype⟩

variable {t : Table}

/-- No key is equal to another one, from whichever side they are compared. -/
theorem distinctKeys (ht : (Value.table t).Built) :
    t.rows.Pairwise fun a b => Key.same a.1 b.1 = false ∧ Key.same b.1 a.1 = false := by
  refine ht.newKeys.imp_of_mem ?_
  intro old new hold hnew hdiffer
  refine ⟨?_, hdiffer⟩
  rw [← Bool.not_eq_true] at hdiffer ⊢
  intro hsame
  apply hdiffer
  exact Key.same_symm (ht.keyCells old hold) (ht.keyCells new hnew) hsame

theorem get_of_mem (ht : (Value.table t).Built) {entry : Key × Record} (hentry : entry ∈ t.rows) :
    t.get entry.1 = .ok (some entry.2) := by
  obtain ⟨hrow, hkey⟩ := ht.rows.2 entry hentry
  have hcells := ht.keyCells entry hentry
  rw [get_eq ht.rows.1.wellFormed (TabularType.fits_of_keyOf hrow hkey)]
  rw [find?_of_same ht hcells hentry (Key.same_self hcells)]

/-- Look-up and removal answer alike, and fail alike. -/
theorem answers_alike (t : Table) (key : Key) :
    t.hasKey key = (t.get key).map Option.isSome ∧
      ((Change.remove key).step t).1 = t.get key := by
  refine ⟨rfl, ?_⟩
  rw [Change.step_eq, Change.result, remove]
  rcases t.get key with e | found
  · rfl
  · rfl

/-- After any run of changes from the table without rows, some of which may fail: each row is of a
type that the table takes, stands under its own key and is found there, and no two keys are
equal. A change that fails leaves the table as it is, a row is there if an equal one is under its
key, and look-up and removal fail just for keys that do not fit the index. -/
theorem rows_stay_under_their_keys {type : TabularType} (htype : (OpenType.tabular type).Built)
    {changes : List Change} (hchanges : ∀ change ∈ changes, change.Built) :
    let t := (empty type).after changes
    (∀ entry ∈ t.rows, type.row.accepts entry.2.type = true ∧
      type.keyOf entry.2 = .ok entry.1) ∧
    (t.rows.Pairwise fun a b => Key.same a.1 b.1 = false ∧ Key.same b.1 a.1 = false) ∧
    (∀ entry ∈ t.rows, ∀ key, type.keyOf entry.2 = .ok key →
      t.get key = .ok (some entry.2) ∧ t.hasKey key = .ok true) ∧
    (∀ (change : Change) e, (change.step t).1 = .error e → (change.step t).2 = t) ∧
    (∀ row, (Value.record row).Built → (t.hasRow row = true ↔
      ∃ key stored, type.keyOf row = .ok key ∧ t.get key = .ok (some stored) ∧
        stored.same row = true)) ∧
    ∀ key,
      (type.Misfits key → ∃ fault, t.get key = .error (.invalidKey fault) ∧
        t.hasKey key = .error (.invalidKey fault) ∧
        ((Change.remove key).step t).1 = .error (.invalidKey fault)) ∧
      (¬ type.Misfits key → ∃ found, t.get key = .ok found ∧
        t.hasKey key = .ok found.isSome ∧ ((Change.remove key).step t).1 = .ok found) := by
  intro t
  obtain ⟨ht, hsame⟩ : (Value.table t).Built ∧ t.type = type :=
    built_after (.empty htype) hchanges
  have hwell : t.type.WellFormed := ht.rows.1.wellFormed
  rw [← hsame]
  refine ⟨?_, distinctKeys ht, ?_, fun _ _ => Change.step_of_error, fun _ => hasRow_iff ht, ?_⟩
  · intro entry hentry
    obtain ⟨_, hkey⟩ := ht.rows.2 entry hentry
    exact ⟨(TabularType.keyOf_eq_ok.mp hkey).1, hkey⟩
  · intro entry hentry key hkey
    obtain ⟨_, hown⟩ := ht.rows.2 entry hentry
    obtain rfl : entry.1 = key := Except.ok.inj (hown.symm.trans hkey)
    have hget := get_of_mem ht hentry
    exact ⟨hget, by rw [hasKey, hget]; rfl⟩
  · intro key
    obtain ⟨hhas, hremove⟩ := answers_alike t key
    rw [hhas, hremove]
    refine ⟨?_, ?_⟩
    · intro hmisfits
      obtain ⟨fault, hget⟩ := get_of_misfits hwell hmisfits
      rw [hget]
      exact ⟨fault, rfl, rfl, rfl⟩
    · intro hfits
      rw [get_eq hwell hfits]
      exact ⟨_, rfl, rfl, rfl⟩

/-- Points by their first coordinate. -/
def pointsByX : TabularType := ⟨"Points", "Points by x", OpenType.points ["x"], ["x"]⟩

theorem built_pointsByX : (OpenType.tabular pointsByX).Built := by
  have hrow : (OpenType.composite pointsByX.row).Built :=
    OpenType.built_points (by decide) (by decide) (by decide)
  apply OpenType.built_tabular_iff.mpr
  exact ⟨⟨by decide, by decide, by decide, by decide, by decide⟩, hrow⟩

/-- A point with one coordinate more. -/
def point (x y : Int32) : Record :=
  ⟨OpenType.points ["x", "y"],
    [("x", some (.scalar (.integer x))), ("y", some (.scalar (.integer y)))]⟩

theorem built_point (x y : Int32) : (Value.record (point x y)).Built := by
  have htype : (OpenType.composite (OpenType.points ["x", "y"])).Built :=
    OpenType.built_points (by decide) (by decide) (by decide)
  have hbuild : Record.build (OpenType.points ["x", "y"]) (point x y).fields =
      .ok (point x y) := rfl
  refine .record htype ?_ hbuild
  intro name v hfield
  simp only [point, List.mem_cons, Prod.mk.injEq, Option.some.injEq, List.not_mem_nil,
    or_false] at hfield
  rcases hfield with ⟨_, rfl⟩ | ⟨_, rfl⟩
  · exact .scalar trivial
  · exact .scalar trivial

/-- Of a point, another one under its key, a batch with two points under one key, and a key that is
too long, all but the first one fail. -/
theorem a_point_stays_under_its_key :
    let t := (empty pointsByX).after
      [.put (point 1 10), .put (point 1 99), .putAll [point 2 20, point 2 21],
        .remove [none, none]]
    t.get [some (.scalar (.integer 1))] = .ok (some (point 1 10)) ∧
      t.hasRow (point 1 10) = true := by
  have hchanges : ∀ change ∈ [Change.put (point 1 10), .put (point 1 99),
      .putAll [point 2 20, point 2 21], .remove [none, none]], change.Built := by
    simp [Change.Built, built_point]
  obtain ⟨_, _, hfound, _, hhas, _⟩ := rows_stay_under_their_keys built_pointsByX hchanges
  have hget := (hfound ([some (.scalar (.integer 1))], point 1 10) List.mem_cons_self _ rfl).1
  refine ⟨hget, (hhas (point 1 10) (built_point 1 10)).mpr ?_⟩
  exact ⟨_, point 1 10, rfl, hget, rfl⟩

end Table

end ManagementSchema
