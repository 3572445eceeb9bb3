-- The natural order as a total order within each kind. Two values of a kind
-- are level just if they are equal, unless the kind is that of decimals:
-- these are level when their numbers are equal, whatever their scales.
import ManagementSchema.Proofs.BinaryPatterns
import ManagementSchema.Proofs.BuiltValues
import ManagementSchema.Proofs.NaturalOrder
import ManagementSchema.Proofs.ObjectNameText

namespace ManagementSchema

/-! ## Level values -/

namespace BinaryFormat

theorem place_single_inj {a b : UInt32} :
    single.place a.toNat = single.place b.toNat ↔ a = b := by
  refine ⟨?_, fun h => h ▸ rfl⟩
  intro h
  have ha : a.toNat < 2 * single.signWeight := a.toNat_lt
  have hb : b.toNat < 2 * single.signWeight := b.toNat_lt
  exact UInt32.toNat_inj.mp (place_inj ha hb h)

theorem place_double_inj {a b : UInt64} :
    double.place a.toNat = double.place b.toNat ↔ a = b := by
  refine ⟨?_, fun h => h ▸ rfl⟩
  intro h
  have ha : a.toNat < 2 * double.signWeight := a.toNat_lt
  have hb : b.toNat < 2 * double.signWeight := b.toNat_lt
  exact UInt64.toNat_inj.mp (place_inj ha hb h)

end BinaryFormat

theorem Instant.compare_eq_iff_eq {t u : Instant} : t.compare u = .eq ↔ t = u := by
  obtain ⟨seconds, nano⟩ := t
  obtain ⟨seconds', nano'⟩ := u
  simp [Instant.compare]

/-- Names of one domain and one list of properties have one canonical form. -/
theorem ObjectName.compare_eq_iff_eq {n m : ObjectName} (hn : n.Sound) (hm : m.Sound) :
    n.compare m = .eq ↔ n = m := by
  refine ⟨?_, ?_⟩
  · intro h
    simp only [ObjectName.compare, Ordering.then_eq_eq, Std.LawfulEqOrd.compare_eq_iff_eq] at h
    apply eq_of_canonical_eq hn hm
    unfold canonical
    rw [h.1, h.2]
  · rintro rfl
    exact Std.ReflCmp.compare_self

theorem Decimal.compareNumeric_eq_iff {d e : Decimal} :
    d.compareNumeric e = .eq ↔ d.number = e.number := by
  rw [compareNumeric_eq, compare_eq_iff_eq]

namespace Scalar

variable {a b c : Scalar}

theorem Built.soundName {n : ObjectName} (h : (objectName n).Built) : n.Sound := by
  obtain ⟨domain, properties, hbuild⟩ := h
  exact ObjectName.sound_of_ofProperties hbuild

/-- Names are the one kind whose values have to be built: a name with a comma in a value could show
the same properties as another one. -/
theorem compare_eq_iff_eq (ha : a.Built) (hb : b.Built) (h : a.kind ≠ .bigDecimal) :
    a.compare b = some .eq ↔ a = b := by
  cases a with
  | boolean a => cases b <;> simp [Scalar.compare]
  | character a => cases b <;> simp [Scalar.compare, Char.toNat_inj]
  | byte a => cases b <;> simp [Scalar.compare, Int8.toInt_inj]
  | short a => cases b <;> simp [Scalar.compare, Int16.toInt_inj]
  | integer a => cases b <;> simp [Scalar.compare, Int32.toInt_inj]
  | long a => cases b <;> simp [Scalar.compare, Int64.toInt_inj]
  | float a => cases b <;> simp [Scalar.compare, BinaryFormat.place_single_inj]
  | double a => cases b <;> simp [Scalar.compare, BinaryFormat.place_double_inj]
  | string a => cases b <;> simp [Scalar.compare]
  | bigDecimal a => exact absurd rfl h
  | bigInteger a => cases b <;> simp [Scalar.compare]
  | date a => cases b <;> simp [Scalar.compare, Instant.compare_eq_iff_eq]
  | objectName a =>
    cases b
    case objectName b =>
      simp [Scalar.compare, ObjectName.compare_eq_iff_eq ha.soundName hb.soundName]
    all_goals simp [Scalar.compare]

theorem compare_isLE_trans (hab : (a.compare b).any Ordering.isLE = true)
    (hbc : (b.compare c).any Ordering.isLE = true) : (a.compare c).any Ordering.isLE = true := by
  have hkinds : a.kind = b.kind ∧ b.kind = c.kind := by
    rw [← compare_isSome, ← compare_isSome]
    exact ⟨Option.isSome_of_any hab, Option.isSome_of_any hbc⟩
  obtain ⟨hab', hbc'⟩ := hkinds
  -- One case for each kind is left: the three values are of it, and its own order is transitive.
  cases a <;> cases b <;> cases hab' <;> cases c <;> cases hbc'
  all_goals
    simp only [Scalar.compare, Option.any_some] at hab hbc ⊢
    exact Std.TransCmp.isLE_trans hab hbc

end Scalar

/-! ## Values -/

namespace Value

variable {a b c : Value}

theorem atMost_iff_isLE : a.AtMost b ↔ (a.compare b).any Ordering.isLE = true := by
  unfold AtMost
  rcases a.compare b with _ | order
  · simp
  · simp [Ordering.isLE_iff_eq_lt_or_eq_eq]

theorem AtMost.trans (hab : a.AtMost b) (hbc : b.AtMost c) : a.AtMost c := by
  rw [atMost_iff_isLE] at hab hbc ⊢
  obtain ⟨s, t, rfl, rfl, _⟩ := compare_isSome_iff.mp (Option.isSome_of_any hab)
  obtain ⟨t', u, heq, rfl, _⟩ := compare_isSome_iff.mp (Option.isSome_of_any hbc)
  cases heq
  exact Scalar.compare_isLE_trans hab hbc

/-- Of two values that can be compared, one is at most the other. -/
theorem atMost_total (h : (a.compare b).isSome = true) : a.AtMost b ∨ b.AtMost a := by
  rw [@atMost_iff_swap b a]
  unfold AtMost
  rcases hc : a.compare b with _ | _ | _ | _
  · simp [hc] at h
  · simp
  · simp
  · simp

theorem compare_eq_iff_same {s t : Scalar} (hs : s.Built) (ht : t.Built)
    (h : s.kind ≠ .bigDecimal) :
    (scalar s).compare (scalar t) = some .eq ↔ (scalar s).same (scalar t) = true := by
  change s.compare t = some .eq ↔ decide (s = t) = true
  rw [decide_eq_true_iff]
  exact Scalar.compare_eq_iff_eq hs ht h

/-- Values are compared just if they are single and of one kind. On such values the comparison is a
total preorder: turned round it gives the opposite, and what is at most something is at most all
that this is at most. Level values are the equal ones, but decimals are level when their numbers are
equal. So any two values of an ordered type can be compared. -/
theorem the_natural_order_is_total_on_each_kind :
    (∀ a b : Value, (a.compare b).isSome = true ↔
      ∃ s t, a = .scalar s ∧ b = .scalar t ∧ s.kind = t.kind) ∧
    (∀ a b : Value, a.compare b = (b.compare a).map Ordering.swap) ∧
    (∀ a b c : Value, a.AtMost b → b.AtMost c → a.AtMost c) ∧
    (∀ s t : Scalar, s.Built → t.Built → s.kind ≠ .bigDecimal →
      ((scalar s).compare (scalar t) = some .eq ↔ (scalar s).same (scalar t) = true)) ∧
    (∀ d e : Decimal, (scalar (.bigDecimal d)).compare (scalar (.bigDecimal e)) = some .eq ↔
      d.number = e.number) ∧
    ∀ type : OpenType, type.isOrdered = true → ∀ a b : Value,
      type.hasValue a = true → type.hasValue b = true →
        (a.compare b).isSome = true ∧ (a.AtMost b ∨ b.AtMost a) := by
  refine ⟨?_, ?_, ?_, ?_, ?_, ?_⟩
  · intro a b
    exact compare_isSome_iff
  · exact compare_swap
  · intro a b c
    exact AtMost.trans
  · intro s t hs ht h
    exact compare_eq_iff_same hs ht h
  · intro d e
    change some (d.compareNumeric e) = some .eq ↔ _
    rw [Option.some.injEq]
    exact Decimal.compareNumeric_eq_iff
  · intro type h a b ha hb
    have hsome := compare_isSome_of_isOrdered h ha hb
    exact ⟨hsome, atMost_total hsome⟩

/-- The zeros of the two signs are not level, what is no number is above both, and decimals of two
scales are level. -/
theorem zeros_and_what_is_no_number_are_in_order :
    (scalar (.float 0x80000000)).AtMost (scalar (.float 0)) ∧
    (scalar (.float 0)).AtMost (scalar (.float 0x7fc00000)) ∧
    (scalar (.float 0x80000000)).AtMost (scalar (.float 0x7fc00000)) ∧
    (scalar (.float 0x80000000)).compare (scalar (.float 0)) ≠ some .eq ∧
    (scalar (.bigDecimal ⟨10, 1⟩)).compare (scalar (.bigDecimal ⟨100, 2⟩)) = some .eq ∧
    ((scalar (.float 0)).compare (scalar (.float 0x7fc00000))).isSome = true := by
  obtain ⟨_, _, htrans, hlevel, hdecimals, hordered⟩ := the_natural_order_is_total_on_each_kind
  have hzeros : (scalar (.float 0x80000000)).AtMost (scalar (.float 0)) := Or.inl (by decide)
  have habove : (scalar (.float 0)).AtMost (scalar (.float 0x7fc00000)) := Or.inl (by decide)
  refine ⟨hzeros, habove, htrans _ _ _ hzeros habove, ?_, ?_, ?_⟩
  · rw [Ne, hlevel (.float 0x80000000) (.float 0) trivial trivial (by decide)]
    decide
  · have hone : Int32.toInt 1 = 1 := rfl
    have htwo : Int32.toInt 2 = 2 := rfl
    rw [hdecimals]
    norm_num [Decimal.number, hone, htwo]
  · exact (hordered (.simple .float) rfl _ _ rfl rfl).1

end Value

end ManagementSchema
