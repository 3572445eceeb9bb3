-- The order of insertion. A row is put in if no row in the table has its key,
-- and keys are compared alike from both sides. So it does not matter which of
-- two rows comes first, and neither equality nor the written form of a table
-- tells the order.
import ManagementSchema.Proofs.Batches
import ManagementSchema.Proofs.Congruence

namespace ManagementSchema

/-! ## The same rows in another order -/

namespace Table

variable {t t' s : Table} {a b row : Record} {key : Key} {rows others : List Record}

/-- The second table is of the type of the first one and has its rows under the same keys, in
whatever order. -/
structure Reorders (t s : Table) : Prop where
  type : s.type = t.type
  rows : t.rows.Perm s.rows

namespace Reorders

theorem refl (t : Table) : t.Reorders t := ⟨rfl, .refl _⟩

theorem trans {u : Table} (hts : t.Reorders s) (hsu : s.Reorders u) : t.Reorders u :=
  ⟨hsu.type.trans hts.type, hts.rows.trans hsu.rows⟩

theorem find?_eq_none (h : t.Reorders s) (hnew : t.find? key = none) : s.find? key = none := by
  rw [Table.find?_eq_none] at hnew ⊢
  intro entry hentry
  exact hnew entry (h.rows.mem_iff.mpr hentry)

theorem put (h : t.Reorders s) (hput : t.put row = .ok t') :
    ∃ s', s.put row = .ok s' ∧ t'.Reorders s' := by
  obtain ⟨key, hkey, hnew, rfl⟩ := put_eq_ok.mp hput
  have hkey' : s.type.keyOf row = .ok key := by rw [h.type, hkey]
  refine ⟨_, put_eq_ok.mpr ⟨key, hkey', h.find?_eq_none hnew, rfl⟩, ?_⟩
  exact ⟨h.type, h.rows.append_right _⟩

theorem puts (h : t.Reorders s) (hrun : rows.foldlM Table.put t = .ok t') :
    ∃ s', rows.foldlM Table.put s = .ok s' ∧ t'.Reorders s' := by
  induction rows generalizing t s with
  | nil =>
    cases hrun
    exact ⟨s, rfl, h⟩
  | cons row rest ih =>
    rw [List.foldlM_cons, Outcome.bind_eq_ok] at hrun
    obtain ⟨middle, hput, hrest⟩ := hrun
    obtain ⟨next, hnext, hmiddle⟩ := h.put hput
    obtain ⟨s', hs', hsame⟩ := ih hmiddle hrest
    refine ⟨s', ?_, hsame⟩
    rw [List.foldlM_cons, hnext, Outcome.ok_bind, hs']

end Reorders

/-- Where one row can be put in behind another one, it can be put in before it. -/
theorem put_swap (ha : (Value.record a).Built) (hb : (Value.record b).Built)
    (hfirst : t.put a = .ok s) (hsecond : s.put b = .ok t') :
    ∃ s' t'', t.put b = .ok s' ∧ s'.put a = .ok t'' ∧ t'.Reorders t'' := by
  obtain ⟨keyA, hkeyA, hnewA, rfl⟩ := put_eq_ok.mp hfirst
  obtain ⟨keyB, hkeyB, hnewB, rfl⟩ := put_eq_ok.mp hsecond
  rw [find?_eq_none] at hnewA hnewB
  simp only [List.forall_mem_append, List.forall_mem_singleton] at hnewB
  have hdiffer : keyA.same keyB = false := by
    by_contra hsame
    rw [Bool.not_eq_false] at hsame
    have hback := Key.same_symm (ha.ofKey hkeyA) (hb.ofKey hkeyB) hsame
    simp [hnewB.2] at hback
  have hputB : t.put b = .ok ⟨t.type, t.rows ++ [(keyB, b)]⟩ :=
    put_eq_ok.mpr ⟨keyB, hkeyB, find?_eq_none.mpr hnewB.1, rfl⟩
  refine ⟨_, _, hputB, put_eq_ok.mpr ⟨keyA, hkeyA, ?_, rfl⟩, rfl, ?_⟩
  · rw [find?_eq_none]
    simp only [List.forall_mem_append, List.forall_mem_singleton]
    exact ⟨hnewA, hdiffer⟩
  · simp only [List.append_assoc]
    apply List.Perm.append_left
    apply List.Perm.swap

/-- A run of puts may take its rows in any order. -/
theorem puts_perm (hrows : ∀ row ∈ rows, (Value.record row).Built) (h : rows.Perm others)
    (hrun : rows.foldlM put t = .ok t') :
    ∃ t'', others.foldlM put t = .ok t'' ∧ t'.Reorders t'' := by
  induction h generalizing t t' with
  | nil => exact ⟨t', hrun, .refl t'⟩
  | cons row _ ih =>
    rw [List.foldlM_cons, Outcome.bind_eq_ok] at hrun
    obtain ⟨middle, hput, hrest⟩ := hrun
    obtain ⟨t'', ht'', hsame⟩ := ih (List.forall_mem_cons.mp hrows).2 hrest
    refine ⟨t'', ?_, hsame⟩
    rw [List.foldlM_cons, hput, Outcome.ok_bind, ht'']
  | swap a b rest =>
    rw [List.foldlM_cons, Outcome.bind_eq_ok] at hrun
    obtain ⟨first, hfirst, hrun⟩ := hrun
    rw [List.foldlM_cons, Outcome.bind_eq_ok] at hrun
    obtain ⟨second, hsecond, hrest⟩ := hrun
    simp only [List.forall_mem_cons] at hrows
    obtain ⟨first', second', hfirst', hsecond', hboth⟩ :=
      put_swap hrows.1 hrows.2.1 hfirst hsecond
    obtain ⟨t'', ht'', hsame⟩ := hboth.puts hrest
    refine ⟨t'', ?_, hsame⟩
    rw [List.foldlM_cons, hfirst', Outcome.ok_bind, List.foldlM_cons, hsecond', Outcome.ok_bind,
      ht'']
  | trans hfirst _ ih ih' =>
    obtain ⟨middle, hmiddle, hsame⟩ := ih hrows hrun
    obtain ⟨t'', ht'', hsame'⟩ := ih' (fun row hrow => hrows row (hfirst.mem_iff.mpr hrow)) hmiddle
    exact ⟨t'', ht'', hsame.trans hsame'⟩

/-! ## Written form -/

theorem toString_eq (t : Table) : t.toString =
    "TabularData(tabularType=" ++ t.type.name ++ ",contents=" ++
      bracedRows (Value.renderRows t.rows) ++ ")" := by
  cases t
  rfl

theorem renderRows_eq_map (rows : List (Key × Record)) : Value.renderRows rows =
    rows.map fun entry => Record.entryText (Key.toText entry.1) entry.2.toString := by
  induction rows with
  | nil => rfl
  | cons entry rest ih =>
    rw [List.map_cons, ← ih]
    rfl

/-- Rows are written in alphabetical order. -/
theorem bracedRows_of_perm {rows others : List String} (h : rows.Perm others) :
    bracedRows rows = bracedRows others := by
  have hsorted : ∀ rows : List String,
      (rows.mergeSort fun a b => a ≤ b).Pairwise fun a b => a ≤ b := by
    intro rows
    have hpairwise : (rows.mergeSort fun a b => a ≤ b).Pairwise
        fun a b => decide (a ≤ b) = true := by
      apply List.pairwise_mergeSort
      · simpa using fun a b c => String.le_trans
      · simpa using String.le_total
    simpa using hpairwise
  have hperm : (rows.mergeSort fun a b => a ≤ b).Perm (others.mergeSort fun a b => a ≤ b) :=
    (List.mergeSort_perm rows _).trans (h.trans (List.mergeSort_perm others _).symm)
  have hequal := hperm.eq_of_pairwise ?_ (hsorted rows) (hsorted others)
  · unfold bracedRows
    rw [hequal]
  · intro a b _ _ hab hba
    exact String.le_antisymm hab hba

theorem toString_of_reorders (h : t.Reorders s) : t.toString = s.toString := by
  have hrows := bracedRows_of_perm (h.rows.map fun entry =>
    Record.entryText (Key.toText entry.1) entry.2.toString)
  rw [toString_eq, toString_eq, h.type, renderRows_eq_map, renderRows_eq_map, hrows]

/-! ## Equality by rows -/

/-- Each row of the first table is equal to one of the second. -/
def Shares (t s : Table) : Prop :=
  ∀ entry ∈ t.rows, ∃ other ∈ s.rows, entry.2.same other.2 = true

theorem shares_of_same (h : (Value.table t).same (.table s) = true) : t.Shares s := by
  obtain ⟨_, ⟨⟩, _, _, hpaired⟩ := Value.same_table_iff.mp h
  intro entry hentry
  obtain ⟨other, hother, _, hsame⟩ := hpaired entry hentry
  exact ⟨other, hother, hsame⟩

/-- Under equal types a row is taken alike, and has one key. -/
theorem keyOf_of_same {type type' : TabularType}
    (h : (OpenType.tabular type).same (.tabular type') = true)
    (htype : (OpenType.tabular type).Built) (htype' : (OpenType.tabular type').Built)
    (hkey : type.keyOf row = .ok key) : type'.keyOf row = .ok key := by
  obtain ⟨_, ⟨⟩, _, hrow, hindex⟩ := OpenType.same_tabular_iff.mp h
  obtain ⟨_, hcells⟩ := TabularType.keyOf_eq_ok.mp hkey
  have hback := ((OpenType.same_iff_accepts htype.row htype'.row).mp hrow).2
  have haccepts := OpenType.accepts_trans hback (TabularType.accepts_of_keyOf hkey)
  rw [OpenType.accepts] at haccepts
  exact TabularType.keyOf_eq_ok.mpr ⟨haccepts, hindex ▸ hcells⟩

/-- Equal rows of tables of equal types stand under equal keys. -/
theorem paired_of_shares (ht : (Value.table t).Built) (hs : (Value.table s).Built)
    (htype : (OpenType.tabular t.type).same (.tabular s.type) = true) (h : t.Shares s) :
    ∀ entry ∈ t.rows, ∃ other ∈ s.rows, Key.same entry.1 other.1 = true ∧
      (Value.record entry.2).same (.record other.2) = true := by
  intro entry hentry
  obtain ⟨other, hother, hsame⟩ := h entry hentry
  obtain ⟨_, hkey⟩ := ht.rows.2 entry hentry
  obtain ⟨_, hotherKey⟩ := hs.rows.2 other hother
  have hkey' := keyOf_of_same htype ht.rows.1 hs.rows.1 hkey
  exact ⟨other, hother, TabularType.same_keyOf hsame hkey' hotherKey, hsame⟩

theorem length_le_of_shares (ht : (Value.table t).Built) (hs : (Value.table s).Built)
    (htype : (OpenType.tabular t.type).same (.tabular s.type) = true) (h : t.Shares s) :
    t.rows.length ≤ s.rows.length := by
  apply Value.length_le_of_paired (paired_of_shares ht hs htype h)
  apply Value.apart_of_newKeys ht hs
  intro entry hentry v hv
  exact (ht.keyCells entry hentry v hv).coherent

theorem same_iff_shares (ht : (Value.table t).Built) (hs : (Value.table s).Built) :
    (Value.table t).same (.table s) = true ↔
      (OpenType.tabular t.type).same (.tabular s.type) = true ∧ t.Shares s ∧ s.Shares t := by
  refine ⟨?_, ?_⟩
  · intro hsame
    exact ⟨Value.same_type hsame, shares_of_same hsame,
      shares_of_same (Value.same_symm ht hs hsame)⟩
  · intro ⟨htype, hshares, hback⟩
    have htype' := OpenType.same_symm ht.rows.1 hs.rows.1 htype
    apply Value.same_table_iff.mpr
    refine ⟨s, rfl, htype, ?_, paired_of_shares ht hs htype hshares⟩
    apply Nat.le_antisymm
    · exact length_le_of_shares ht hs htype hshares
    · exact length_le_of_shares hs ht htype' hback

theorem same_of_reorders (ht : (Value.table t).Built) (hs : (Value.table s).Built)
    (h : t.Reorders s) : (Value.table t).same (.table s) = true := by
  rw [same_iff_shares ht hs, h.type]
  refine ⟨OpenType.same_self ht.rows.1, ?_, ?_⟩
  · intro entry hentry
    exact ⟨entry, h.rows.mem_iff.mp hentry, Value.same_self (ht.rows.2 entry hentry).1⟩
  · intro entry hentry
    exact ⟨entry, h.rows.mem_iff.mpr hentry, Value.same_self (hs.rows.2 entry hentry).1⟩

/-! ## Ways to put rows in -/

/-- Each of the changes is made when its turn comes. -/
def MakesEach (t : Table) (changes : List Change) : Prop :=
  ∀ before change rest, changes = before ++ change :: rest →
    ∃ answer, (change.step (t.after before)).1 = .ok answer

theorem makesEach_nil : t.MakesEach [] := by
  intro before change rest h
  simp at h

theorem makesEach_cons {change : Change} {changes : List Change} :
    t.MakesEach (change :: changes) ↔
      (∃ answer, (change.step t).1 = .ok answer) ∧ (change.step t).2.MakesEach changes := by
  refine ⟨?_, ?_⟩
  · intro h
    refine ⟨h [] change changes rfl, ?_⟩
    intro before next rest heq
    exact h (change :: before) next rest (by rw [heq, List.cons_append])
  · intro ⟨hfirst, hrest⟩ before next rest heq
    cases before with
    | nil =>
      cases heq
      exact hfirst
    | cons first before =>
      cases heq
      exact hrest before next rest rfl

/-- The rows are put in one after the other, or all of them as a batch. -/
inductive Inserts (rows : List Record) : List Change → Prop
  | inTurn : Inserts rows (rows.map .put)
  | atOnce : Inserts rows [.putAll rows]

theorem makesEach_puts : t.MakesEach (rows.map .put) ↔ ∃ t', rows.foldlM put t = .ok t' := by
  induction rows generalizing t with
  | nil => exact iff_of_true makesEach_nil ⟨t, rfl⟩
  | cons row rest ih =>
    rw [List.map_cons, makesEach_cons, ih, Change.step_put, List.foldlM_cons]
    rcases t.put row with e | next
    · simp
    · simp

/-- Both ways come to a run of puts that stops at the first error. -/
theorem makesEach_of_inserts {changes : List Change} (h : Inserts rows changes) :
    (t.MakesEach changes ↔ ∃ t', rows.foldlM put t = .ok t') ∧
      ∀ t', rows.foldlM put t = .ok t' → t.after changes = t' := by
  cases h with
  | inTurn => exact ⟨makesEach_puts, fun t' => afterPuts_of_foldlM⟩
  | atOnce =>
    rw [makesEach_cons, after, List.foldl_cons, List.foldl_nil, Change.step_putAll]
    rcases rows.foldlM put t with e | t'
    · simp
    · simp [makesEach_nil]

theorem built_of_inserts {changes : List Change} (h : Inserts rows changes)
    (hrows : ∀ row ∈ rows, (Value.record row).Built) : ∀ change ∈ changes, change.Built := by
  cases h with
  | inTurn => simpa [Change.Built] using hrows
  | atOnce => simpa [Change.Built] using hrows

/-! ## The law -/

/-- Rows that can be put into a table without rows, one after the other or as a batch, can be put in
in any other order and in either way, and the tables are equal and have the same written form. Two
tables are equal just if their types are and each row of one is equal to a row of the other. -/
theorem tables_forget_the_order_of_insertion :
    (∀ type : TabularType, (OpenType.tabular type).Built → ∀ rows others : List Record,
      (∀ row ∈ rows, (Value.record row).Built) → rows.Perm others →
      ∀ changes changes', Inserts rows changes → Inserts others changes' →
        (empty type).MakesEach changes →
        let t := (empty type).after changes
        let s := (empty type).after changes'
        (empty type).MakesEach changes' ∧ (Value.table t).same (.table s) = true ∧
          t.toString = s.toString) ∧
    ∀ t s : Table, (Value.table t).Built → (Value.table s).Built →
      ((Value.table t).same (.table s) = true ↔
        (OpenType.tabular t.type).same (.tabular s.type) = true ∧ t.Shares s ∧ s.Shares t) := by
  refine ⟨?_, fun t s => same_iff_shares⟩
  intro type htype rows others hrows h changes changes' hchanges hchanges' hmakes
  have hothers : ∀ row ∈ others, (Value.record row).Built :=
    fun row hrow => hrows row (h.mem_iff.mpr hrow)
  have ht := (built_after (.empty htype) (built_of_inserts hchanges hrows)).1
  have hs := (built_after (.empty htype) (built_of_inserts hchanges' hothers)).1
  obtain ⟨hiff, hafter⟩ := makesEach_of_inserts (t := empty type) hchanges
  obtain ⟨hiff', hafter'⟩ := makesEach_of_inserts (t := empty type) hchanges'
  obtain ⟨t, hrun⟩ := hiff.mp hmakes
  obtain ⟨s, hrun', hreorders⟩ := puts_perm hrows h hrun
  rw [hafter t hrun] at ht ⊢
  rw [hafter' s hrun'] at hs ⊢
  refine ⟨hiff'.mpr ⟨s, hrun'⟩, ?_, ?_⟩
  · exact same_of_reorders ht hs hreorders
  · exact toString_of_reorders hreorders

/-- Two points that are put in one after the other are also put in as a batch that names the second
one first, and a table that has only the first one is another table. -/
theorem two_points_are_put_in_either_way :
    let t := (empty pointsByX).after [.put (point 1 10), .put (point 2 20)]
    let s := (empty pointsByX).after [.putAll [point 2 20, point 1 10]]
    let u := (empty pointsByX).after [.put (point 1 10)]
    (empty pointsByX).MakesEach [.putAll [point 2 20, point 1 10]] ∧
      (Value.table t).same (.table s) = true ∧ ¬ (Value.table t).same (.table u) = true := by
  intro t s u
  have hrows : ∀ row ∈ [point 1 10, point 2 20], (Value.record row).Built := by
    simp [built_point]
  have hmakes : (empty pointsByX).MakesEach ([point 1 10, point 2 20].map .put) :=
    makesEach_puts.mpr ⟨_, rfl⟩
  obtain ⟨horder, hequality⟩ := tables_forget_the_order_of_insertion
  obtain ⟨hbatch, hsame, _⟩ := horder pointsByX built_pointsByX _ _ hrows (List.Perm.swap _ _ [])
    _ _ .inTurn .atOnce hmakes
  refine ⟨hbatch, hsame, ?_⟩
  have ht := (built_after (.empty built_pointsByX) (built_of_inserts .inTurn hrows)).1
  have hu : (Value.table u).Built :=
    (built_after (.empty built_pointsByX) (by simp [Change.Built, built_point])).1
  rw [hequality t u ht hu]
  intro hsame
  obtain ⟨_, hshares, _⟩ := hsame
  obtain ⟨other, hother, hrow⟩ := hshares ([some (.scalar (.integer 2))], point 2 20)
    (List.mem_cons_of_mem _ List.mem_cons_self)
  obtain rfl := List.mem_singleton.mp hother
  revert hrow
  decide

end Table

end ManagementSchema
