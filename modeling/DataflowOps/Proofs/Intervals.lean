import DataflowOps.Proofs.Keys

/-!
# Which rows an interval holds

An interval of rows is given by its two ends. Rows are byte strings in lexicographic order, in which
a row has an immediate successor and the empty row comes first, so that an interval can be without
rows although its ends are in order. The rows that begin with a stem are an interval, whose upper
end is as low as it can be.
-/

namespace DataflowOps

namespace Bytes

theorem lt_successor (row : Bytes) : row < row.successor :=
  lt_successor_iff.2 (StrictTotalOrder.irrefl row)

/-- Past a row lie its successor and the rows past that one. -/
theorem successor_lt_iff {row key : Bytes} :
    row.successor < key ↔ row < key ∧ key ≠ row.successor := by
  constructor
  · intro before
    exact ⟨StrictTotalOrder.trans (lt_successor row) before,
      Ne.symm (StrictTotalOrder.ne_of_lt before)⟩
  · rintro ⟨before, different⟩
    have notBefore : ¬ key < row.successor := fun after => lt_successor_iff.1 after before
    exact StrictTotalOrder.lt_of_not_lt notBefore different

theorem nil_lt_iff {key : Bytes} : ([] : Bytes) < key ↔ key ≠ [] := by
  cases key with
  | nil => simp
  | cons byte rest => simp [List.nil_lt_cons]

theorem lt_add_one_iff {byte head : UInt8} (notLast : byte ≠ 0xff) :
    head < byte + 1 ↔ ¬ byte < head := by
  have below : byte.toNat < 0xff := by
    have bounded := byte.toNat_lt
    have different : byte.toNat ≠ 0xff := fun same => notLast (UInt8.toNat_inj.1 same)
    omega
  rw [UInt8.lt_iff_toNat_lt, UInt8.lt_iff_toNat_lt, UInt8.toNat_add, UInt8.toNat_one,
    Nat.mod_eq_of_lt (by omega)]
  omega

theorem eq_last_of_not_lt {head : UInt8} (notBefore : ¬ head < 0xff) : head = 0xff := by
  have bounded := head.toNat_lt
  rw [UInt8.lt_iff_toNat_lt] at notBefore
  have above : ¬ head.toNat < 0xff := notBefore
  exact UInt8.toNat_inj.1 (show head.toNat = 0xff by omega)

/-- The extensions of a stem are the keys from the stem up to the least key above all of them. -/
theorem stem_prefix_iff {stem row : Bytes} :
    stem <+: row ↔
      ¬ row < stem ∧ ∀ bound, leastAboveExtensions? stem = some bound → row < bound := by
  induction stem generalizing row with
  | nil => simp [leastAboveExtensions?]
  | cons byte rest ih =>
      cases row with
      | nil => simp
      | cons head tail =>
          rw [List.cons_prefix_cons, ih, List.cons_lt_cons_iff]
          cases above : leastAboveExtensions? rest with
          | some bound =>
              simp only [leastAboveExtensions?, above, Option.some.injEq, forall_eq',
                List.cons_lt_cons_iff]
              constructor
              · rintro ⟨rfl, notBefore, before⟩
                simp [notBefore, before]
              · rintro ⟨notBefore, before | ⟨rfl, before⟩⟩
                · exact absurd (Or.inl before) notBefore
                · exact ⟨rfl, fun after => notBefore (Or.inr ⟨rfl, after⟩), before⟩
          | none =>
              by_cases last : byte = 0xff
              · subst last
                simp only [leastAboveExtensions?, above, if_true, reduceCtorEq, false_implies,
                  implies_true, and_true]
                constructor
                · rintro ⟨rfl, notBefore⟩
                  simp [notBefore]
                · intro notBefore
                  have same := eq_last_of_not_lt fun before => notBefore (Or.inl before)
                  exact ⟨same.symm, fun before => notBefore (Or.inr ⟨same, before⟩)⟩
              · simp only [leastAboveExtensions?, above, last, if_false, Option.some.injEq,
                  forall_eq', List.cons_lt_cons_iff, List.not_lt_nil, and_false, or_false,
                  lt_add_one_iff last, reduceCtorEq, false_implies, implies_true, and_true]
                constructor
                · rintro ⟨rfl, notBefore⟩
                  simp [notBefore]
                · rintro ⟨notBefore, notAfter⟩
                  have same : byte = head :=
                    StrictTotalOrder.connected notAfter fun before => notBefore (Or.inl before)
                  exact ⟨same, fun before => notBefore (Or.inr ⟨same.symm, before⟩)⟩

/-- Whether a key lies above every row that begins with a stem. -/
def AboveExtensions (stem key : Bytes) : Prop :=
  ∀ row, stem <+: row → row < key

/-- The least key above every row that begins with a stem. -/
structure LeastAboveExtensions (stem bound : Bytes) : Prop where
  above : AboveExtensions stem bound
  least : ∀ key, AboveExtensions stem key → ¬ key < bound

theorem leastAboveExtensions?_eq_none_iff {stem : Bytes} :
    leastAboveExtensions? stem = none ↔ ∀ byte ∈ stem, byte = 0xff := by
  induction stem with
  | nil => simp [leastAboveExtensions?]
  | cons byte rest ih =>
      rw [List.forall_mem_cons, ← ih]
      cases above : leastAboveExtensions? rest with
      | some bound => simp [leastAboveExtensions?, above]
      | none => simp [leastAboveExtensions?, above]

/-- A key above all rows that begin with a stem is not below the bound for them, which exists. -/
theorem exists_bound_of_aboveExtensions {stem key : Bytes} (above : AboveExtensions stem key) :
    ∃ bound, leastAboveExtensions? stem = some bound ∧ ¬ key < bound := by
  have notBefore : ¬ key < stem := StrictTotalOrder.asymm (above stem (List.prefix_refl stem))
  -- The key does not begin with the stem, since it would then lie above itself.
  have notExtension : ¬ stem <+: key :=
    fun extension => StrictTotalOrder.irrefl key (above key extension)
  rw [stem_prefix_iff] at notExtension
  simpa [notBefore] using notExtension

theorem leastAboveExtensions_of_eq_some {stem bound : Bytes}
    (found : leastAboveExtensions? stem = some bound) : LeastAboveExtensions stem bound where
  above row extension := (stem_prefix_iff.1 extension).2 bound found
  least key above := by
    rcases exists_bound_of_aboveExtensions above with ⟨other, foundOther, notBefore⟩
    rw [found, Option.some.injEq] at foundOther
    exact foundOther ▸ notBefore

end Bytes

namespace RowInterval

theorem contains_single_iff {row key : Bytes} : (single row).contains key = true ↔ key = row := by
  simp only [contains, aboveLower, belowUpper, single, Bound.admitsFromBelow,
    Bound.admitsFromAbove, Bool.and_eq_true, Bool.not_eq_true', decide_eq_false_iff_not]
  constructor
  · rintro ⟨notBefore, notAfter⟩
    exact StrictTotalOrder.connected notBefore notAfter
  · rintro rfl
    exact ⟨StrictTotalOrder.irrefl _, StrictTotalOrder.irrefl _⟩

theorem contains_beginningWith_iff {stem key : Bytes} :
    (beginningWith stem).contains key = true ↔ stem <+: key := by
  rw [Bytes.stem_prefix_iff]
  simp only [contains, aboveLower, belowUpper, beginningWith, Bool.and_eq_true]
  apply and_congr
  · cases stem with
    | nil => simp [Bound.admitsFromBelow]
    | cons byte rest => simp [Bound.admitsFromBelow]
  · cases Bytes.leastAboveExtensions? stem with
    | none => simp [Bound.admitsFromAbove]
    | some bound => simp [Bound.admitsFromAbove]

theorem contains_between_iff {first last : Option Bytes} {key : Bytes} :
    (between first last).contains key = true ↔
      (∀ low, first = some low → ¬ key < low) ∧ ∀ high, last = some high → ¬ high < key := by
  simp only [contains, aboveLower, belowUpper, between, Bool.and_eq_true]
  apply and_congr
  · cases first with
    | none => simp [Bound.ofOption, Bound.admitsFromBelow]
    | some low => simp [Bound.ofOption, Bound.admitsFromBelow]
  · cases last with
    | none => simp [Bound.ofOption, Bound.admitsFromAbove]
    | some high => simp [Bound.ofOption, Bound.admitsFromAbove]

/-- The intervals between a row and its successor and before the empty row. Their ends are in order,
but there is no row between them. -/
def IsGap (interval : RowInterval) : Prop :=
  (∃ row : Bytes, interval = ⟨.excluded row, .excluded row.successor⟩) ∨
    interval = ⟨.unbounded, .excluded []⟩

theorem contains_eq_false_of_isGap {interval : RowInterval} (gap : interval.IsGap) (row : Bytes) :
    interval.contains row = false := by
  rcases gap with ⟨low, rfl⟩ | rfl
  · simp [contains, aboveLower, belowUpper, Bound.admitsFromBelow, Bound.admitsFromAbove,
      Bytes.lt_successor_iff]
  · simp [contains, aboveLower, belowUpper, Bound.admitsFromBelow, Bound.admitsFromAbove]

theorem isEmpty_eq_false_of_isGap {interval : RowInterval} (gap : interval.IsGap) :
    interval.isEmpty = false := by
  rcases gap with ⟨low, rfl⟩ | rfl
  · simp [isEmpty, Bytes.lt_successor]
  · rfl

/-- An interval that is neither judged empty nor a gap holds its lower end, the row after it, the
empty row or its upper end. -/
theorem exists_contains {interval : RowInterval} (occupied : interval.isEmpty = false)
    (noGap : ¬ interval.IsGap) : ∃ row, interval.contains row = true := by
  rcases interval with ⟨lower, upper⟩
  simp only [contains, aboveLower, belowUpper, Bool.and_eq_true]
  cases lower with
  | unbounded =>
      refine ⟨[], rfl, ?_⟩
      cases upper with
      | unbounded => rfl
      | included high => simp [Bound.admitsFromAbove]
      | excluded high =>
          have someByte : high ≠ [] := fun none => noGap (Or.inr (by rw [none]))
          simpa [Bound.admitsFromAbove] using Bytes.nil_lt_iff.2 someByte
  | included low =>
      refine ⟨low, by simp [Bound.admitsFromBelow, StrictTotalOrder.irrefl], ?_⟩
      cases upper with
      | unbounded => rfl
      | included high => simpa [isEmpty, Bound.admitsFromAbove] using occupied
      | excluded high => simpa [isEmpty, Bound.admitsFromAbove] using occupied
  | excluded low =>
      cases upper with
      | unbounded =>
          exact ⟨low.successor, by simpa [Bound.admitsFromBelow] using low.lt_successor, rfl⟩
      | included high =>
          have before : low < high := by simpa [isEmpty] using occupied
          exact ⟨high, by simpa [Bound.admitsFromBelow] using before,
            by simp [Bound.admitsFromAbove, StrictTotalOrder.irrefl]⟩
      | excluded high =>
          have before : low < high := by simpa [isEmpty] using occupied
          have apart : high ≠ low.successor := fun same => noGap (Or.inl ⟨low, by rw [same]⟩)
          exact ⟨low.successor, by simpa [Bound.admitsFromBelow] using low.lt_successor,
            by simpa [Bound.admitsFromAbove] using Bytes.successor_lt_iff.2 ⟨before, apart⟩⟩

/-- The intervals without rows are those that are judged empty and, besides, the gaps. -/
theorem holdsNoRow_iff (interval : RowInterval) :
    ((∀ row, interval.contains row = false) ↔ interval.isEmpty = true ∨ interval.IsGap) ∧
      ¬ (interval.isEmpty = true ∧ interval.IsGap) := by
  refine ⟨⟨?_, ?_⟩, ?_⟩
  · intro noRow
    cases occupied : interval.isEmpty with
    | true => exact Or.inl rfl
    | false =>
        refine Or.inr (Classical.byContradiction fun noGap => ?_)
        rcases exists_contains occupied noGap with ⟨row, contained⟩
        rw [noRow row] at contained
        cases contained
  · rintro (empty | gap)
    · exact contains_eq_false_of_isEmpty empty
    · exact contains_eq_false_of_isGap gap
  · rintro ⟨empty, gap⟩
    rw [isEmpty_eq_false_of_isGap gap] at empty
    cases empty

/-- Between a row and the row that follows it at once there is none, but the interval between them
is not judged empty. -/
theorem isEmpty_misses_successor :
    RowInterval.isEmpty ⟨.excluded [0x61], .excluded [0x61, 0]⟩ = false ∧
      ∀ row, RowInterval.contains ⟨.excluded [0x61], .excluded [0x61, 0]⟩ row = false :=
  ⟨by decide, contains_eq_false_of_isGap (Or.inl ⟨[0x61], rfl⟩)⟩

/-- The interval of a stem holds the rows that begin with it, and its upper end is the least key
above all of them. There is no such key, and no upper end, if every byte of the stem is the last. -/
theorem beginningWith_fits_stem (stem : Bytes) :
    (∀ row, (beginningWith stem).contains row = true ↔ stem <+: row) ∧
      ((∃ byte ∈ stem, byte ≠ 0xff) → ∃ bound, (beginningWith stem).upper = .excluded bound ∧
        stem.LeastAboveExtensions bound) ∧
      ((∀ byte ∈ stem, byte = 0xff) → (beginningWith stem).upper = .unbounded ∧
        ∀ key, ¬ stem.AboveExtensions key) := by
  refine ⟨fun _ => contains_beginningWith_iff, ?_, ?_⟩
  · rintro ⟨byte, member, notLast⟩
    cases found : stem.leastAboveExtensions? with
    | some bound =>
        refine ⟨bound, ?_, Bytes.leastAboveExtensions_of_eq_some found⟩
        simp only [beginningWith, found]
    | none => exact absurd (Bytes.leastAboveExtensions?_eq_none_iff.1 found byte member) notLast
  · intro allLast
    have noBound := Bytes.leastAboveExtensions?_eq_none_iff.2 allLast
    refine ⟨by simp only [beginningWith, noBound], ?_⟩
    intro key above
    rcases Bytes.exists_bound_of_aboveExtensions above with ⟨bound, found, _⟩
    rw [noBound] at found
    cases found

theorem beginningWith_fits_trailingLast :
    (∃ byte ∈ ([0x61, 0xff, 0xff] : Bytes), byte ≠ 0xff) ∧
      (beginningWith [0x61, 0xff, 0xff]).upper = .excluded [0x62] ∧
      Bytes.LeastAboveExtensions [0x61, 0xff, 0xff] [0x62] ∧
      (∀ byte ∈ ([0xff] : Bytes), byte = 0xff) ∧ ∀ key, ¬ Bytes.AboveExtensions [0xff] key := by
  have below : ∃ byte ∈ ([0x61, 0xff, 0xff] : Bytes), byte ≠ 0xff :=
    ⟨0x61, List.mem_cons_self, by decide⟩
  have allLast : ∀ byte ∈ ([0xff] : Bytes), byte = 0xff := fun _ => List.mem_singleton.1
  rcases (beginningWith_fits_stem [0x61, 0xff, 0xff]).2.1 below with ⟨bound, upper, least⟩
  have computed : (beginningWith [0x61, 0xff, 0xff]).upper = .excluded [0x62] := by decide
  have same := upper.symm.trans computed
  cases same
  exact ⟨below, upper, least, allLast, ((beginningWith_fits_stem [0xff]).2.2 allLast).2⟩

end RowInterval

end DataflowOps
