-- Batches of rows. A batch is staged before anything is written, but the keys
-- of the staged rows count as taken, so each row meets what it would meet if
-- the rows before it had been put in. So a batch does what its rows do one
-- after the other, or fails as the first of them that can not be put in.
import ManagementSchema.Proofs.TableRuns

namespace ManagementSchema

/-! ## Puts in place -/

namespace Change

theorem step_put (t : Table) (row : Record) :
    (put row).step t =
      match t.put row with
      | .ok t' => (.ok none, t')
      | .error e => (.error e, t) := by
  rw [step_eq, result]
  rcases t.put row with e | t'
  · rfl
  · rfl

/-- A batch is put in as a run of its rows that stops at the first error, but what the run had
written by then is lost. -/
theorem step_putAll (t : Table) (batch : List Record) :
    (putAll batch).step t =
      match batch.foldlM Table.put t with
      | .ok t' => (.ok none, t')
      | .error e => (.error e, t) := by
  rw [step_eq, result, Table.putAll_eq_foldlM]
  rcases batch.foldlM Table.put t with e | t'
  · rfl
  · rfl

theorem answer_put_eq_ok {t : Table} {row : Record} :
    ((put row).step t).1 = .ok none ↔ ∃ t', t.put row = .ok t' := by
  rw [step_put]
  rcases t.put row with e | t'
  · simp
  · simp

theorem answer_put_eq_error {t : Table} {row : Record} {e : DataError} :
    ((put row).step t).1 = .error e ↔ t.put row = .error e := by
  rw [step_put]
  rcases t.put row with e | t'
  · simp
  · simp

end Change

namespace Table

variable {t t' : Table} {batch before : List Record} {row : Record} {key : Key} {e : DataError}

/-! ## One row after the other -/

/-- The table after the rows were put in one after the other, whether or not each of them could
be. -/
def afterPuts (t : Table) (rows : List Record) : Table := t.after (rows.map .put)

/-- Each row of the batch is put in when its turn comes. -/
def TakesEach (t : Table) (batch : List Record) : Prop :=
  ∀ before row rest, batch = before ++ row :: rest →
    ((Change.put row).step (t.afterPuts before)).1 = .ok none

theorem afterPuts_of_foldlM (h : batch.foldlM put t = .ok t') : t.afterPuts batch = t' := by
  induction batch generalizing t with
  | nil =>
    cases h
    rfl
  | cons row rest ih =>
    rw [List.foldlM_cons, Outcome.bind_eq_ok] at h
    obtain ⟨next, hput, hrest⟩ := h
    have hstep : ((Change.put row).step t).2 = next := by rw [Change.step_put, hput]
    unfold afterPuts after at ih ⊢
    rw [List.map_cons, List.foldl_cons, hstep]
    exact ih hrest

theorem takesEach_iff : t.TakesEach batch ↔ ∃ t', batch.foldlM put t = .ok t' := by
  refine ⟨?_, ?_⟩
  · intro heach
    rcases hrun : batch.foldlM put t with e | t'
    · obtain ⟨before, row, rest, middle, rfl, hbefore, hput⟩ := Outcome.foldlM_eq_error.mp hrun
      obtain ⟨_, hok⟩ := Change.answer_put_eq_ok.mp (heach before row rest rfl)
      rw [afterPuts_of_foldlM hbefore, hput] at hok
      cases hok
    · exact ⟨t', rfl⟩
  · rintro ⟨t', hrun⟩ before row rest rfl
    rw [List.foldlM_append, Outcome.bind_eq_ok] at hrun
    obtain ⟨middle, hbefore, hrest⟩ := hrun
    rw [List.foldlM_cons, Outcome.bind_eq_ok] at hrest
    obtain ⟨next, hput, _⟩ := hrest
    rw [Change.answer_put_eq_ok, afterPuts_of_foldlM hbefore]
    exact ⟨next, hput⟩

/-! ## Rows that are refused -/

/-- Why a row is refused behind the rows before it: the table does not take its type, or its key is
that of a stored row or of one of the rows before it. -/
inductive Refuses (t : Table) (before : List Record) (row : Record) : DataError → Prop
  | wrongType : t.type.row.accepts row.type = false →
      Refuses t before row (.wrongRowType t.type.row.name row.type.name)
  | keyStored {key : Key} {entry : Key × Record} : t.type.keyOf row = .ok key →
      entry ∈ t.rows → key.same entry.1 = true → Refuses t before row (.keyExists key.toText)
  | keyRepeated {key otherKey : Key} {other : Record} : t.type.keyOf row = .ok key →
      other ∈ before → t.type.keyOf other = .ok otherKey → key.same otherKey = true →
      Refuses t before row (.keyExists key.toText)

/-- A built row has no key only where its type is not taken. -/
theorem keyOf_eq_error (ht : (Value.table t).Built) (hrow : (Value.record row).Built)
    (h : t.type.keyOf row = .error e) :
    t.type.row.accepts row.type = false ∧ e = .wrongRowType t.type.row.name row.type.name := by
  by_cases haccepts : t.type.row.accepts row.type = true
  · have hkey := TabularType.exists_key ht.rows.1 hrow (by rwa [OpenType.accepts])
    obtain ⟨key, hkey⟩ := hkey
    rw [hkey] at h
    cases h
  · unfold TabularType.keyOf at h
    rw [if_neg haccepts] at h
    cases h
    exact ⟨by simpa using haccepts, rfl⟩

theorem put_eq_error (ht : (Value.table t).Built) (hrow : (Value.record row).Built)
    (h : t.put row = .error e) : t.Refuses [] row e := by
  unfold put at h
  rcases Outcome.bind_eq_error.mp h with hkey | ⟨key, hkey, hfound⟩
  · obtain ⟨haccepts, rfl⟩ := keyOf_eq_error ht hrow hkey
    exact .wrongType haccepts
  · rcases hfind : t.find? key with _ | old
    · simp [hfind] at hfound
    · obtain ⟨entry, hentry, hsame, _⟩ := mem_of_find? hfind
      obtain rfl : .keyExists key.toText = e := by simpa [hfind] using hfound
      exact .keyStored hkey hentry hsame

/-- The rows that are there in the end were stored before, or are rows of the batch. -/
theorem mem_rows_of_foldlM (h : batch.foldlM put t = .ok t') :
    ∀ entry ∈ t'.rows, entry ∈ t.rows ∨ entry.2 ∈ batch := by
  refine Outcome.foldlM_keeps (P := fun t' => ∀ entry ∈ t'.rows,
    entry ∈ t.rows ∨ entry.2 ∈ batch) ?_ (fun _ => .inl) h
  intro row hrow middle next hrows hput
  obtain ⟨key, _, _, rfl⟩ := put_eq_ok.mp hput
  intro entry hentry
  rcases List.mem_append.mp hentry with hold | hnew
  · exact hrows entry hold
  · obtain rfl := List.mem_singleton.mp hnew
    exact .inr hrow

theorem built_afterPuts (ht : (Value.table t).Built)
    (hbefore : ∀ row ∈ before, (Value.record row).Built) :
    (Value.table (t.afterPuts before)).Built ∧ (t.afterPuts before).type = t.type := by
  apply built_after ht
  intro change hchange
  obtain ⟨row, hrow, rfl⟩ := List.mem_map.mp hchange
  exact hbefore row hrow

/-- A row that can not be put in when its turn comes is refused behind the rows before it. -/
theorem refuses_of_error (ht : (Value.table t).Built)
    (hbefore : ∀ row ∈ before, (Value.record row).Built) (hrow : (Value.record row).Built)
    (heach : t.TakesEach before) (h : (t.afterPuts before).put row = .error e) :
    t.Refuses before row e := by
  obtain ⟨hbuilt, htype⟩ := built_afterPuts ht hbefore
  obtain ⟨middle, hrun⟩ := takesEach_iff.mp heach
  have hrows := mem_rows_of_foldlM hrun
  rw [afterPuts_of_foldlM hrun] at hbuilt htype h
  cases put_eq_error hbuilt hrow h with
  | wrongType haccepts =>
    rw [htype] at haccepts ⊢
    exact .wrongType haccepts
  | keyStored hkey hentry hsame =>
    rename_i key entry
    obtain ⟨_, hown⟩ := hbuilt.rows.2 entry hentry
    rw [htype] at hkey hown
    rcases hrows entry hentry with hold | hnew
    · exact .keyStored hkey hold hsame
    · exact .keyRepeated hkey hnew hown hsame
  | keyRepeated _ hother => cases hother

/-! ## The law -/

/-- A batch is put in just if each of its rows is put in when its turn comes, and then the table is
the same as if they had been put in one after the other. If not, the batch fails with the error of
the first row that is refused, for its type or for a key that is taken in the table or by a row
before it, and the table stays as it was. -/
theorem a_batch_is_its_rows_or_nothing (ht : (Value.table t).Built)
    (hbatch : ∀ row ∈ batch, (Value.record row).Built) :
    let whole := (Change.putAll batch).step t
    (whole.1 = .ok none ↔ t.TakesEach batch) ∧
    (t.TakesEach batch → whole.2 = t.afterPuts batch) ∧
    (¬ t.TakesEach batch → ∃ before row rest e, batch = before ++ row :: rest ∧
      t.TakesEach before ∧ ((Change.put row).step (t.afterPuts before)).1 = .error e ∧
      t.Refuses before row e ∧ whole = (.error e, t)) := by
  intro whole
  have hwhole := Change.step_putAll t batch
  rcases hrun : batch.foldlM put t with e | t'
  · have hfails : whole = (.error e, t) := by rw [hrun] at hwhole; exact hwhole
    have hnot : ¬ t.TakesEach batch := by
      rw [takesEach_iff, hrun]
      rintro ⟨_, ⟨⟩⟩
    refine ⟨?_, fun heach => absurd heach hnot, fun _ => ?_⟩
    · rw [hfails]
      exact iff_of_false nofun hnot
    · obtain ⟨before, row, rest, middle, rfl, hbefore, hput⟩ := Outcome.foldlM_eq_error.mp hrun
      have heach : t.TakesEach before := takesEach_iff.mpr ⟨middle, hbefore⟩
      rw [← afterPuts_of_foldlM hbefore] at hput
      rw [List.forall_mem_append, List.forall_mem_cons] at hbatch
      have hrefuses := refuses_of_error ht hbatch.1 hbatch.2.1 heach hput
      refine ⟨before, row, rest, e, rfl, heach, ?_, hrefuses, hfails⟩
      exact Change.answer_put_eq_error.mpr hput
  · have hdone : whole = (.ok none, t') := by rw [hrun] at hwhole; exact hwhole
    have heach : t.TakesEach batch := takesEach_iff.mpr ⟨t', hrun⟩
    refine ⟨?_, fun _ => ?_, fun hnot => absurd heach hnot⟩
    · rw [hdone]
      exact iff_of_true rfl heach
    · rw [hdone, afterPuts_of_foldlM hrun]

/-- Of three points beside a stored one, the last is under the key of the first: each alone could be
put in, but the batch leaves none of them. -/
theorem a_repeated_point_undoes_its_batch :
    let t := (empty pointsByX).after [.put (point 1 10)]
    let batch := [point 2 20, point 3 30, point 2 21]
    (∀ row ∈ batch, ((Change.put row).step t).1 = .ok none) ∧ ¬ t.TakesEach batch ∧
      ((Change.putAll batch).step t).2 = t := by
  intro t batch
  have ht : (Value.table t).Built :=
    (built_after (.empty built_pointsByX) (by simp [Change.Built, built_point])).1
  have hbatch : ∀ row ∈ batch, (Value.record row).Built := by simp [batch, built_point]
  have hnot : ¬ t.TakesEach batch := by
    intro heach
    have hlast := heach [point 2 20, point 3 30] (point 2 21) [] rfl
    cases hlast
  obtain ⟨_, _, hfails⟩ := a_batch_is_its_rows_or_nothing ht hbatch
  obtain ⟨_, _, _, e, _, _, _, _, hwhole⟩ := hfails hnot
  refine ⟨?_, hnot, by rw [hwhole]⟩
  intro row hrow
  simp only [batch, List.mem_cons, List.not_mem_nil, or_false] at hrow
  rcases hrow with rfl | rfl | rfl
  all_goals rfl

end Table

end ManagementSchema
