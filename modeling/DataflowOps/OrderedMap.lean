import DataflowOps.Bound

/-!
# Ordered maps

A finite map kept as the list of its entries in strictly ascending key order. Strict ascent is part
of the type, so that a key has at most one value and a seek is a suffix of the entries. The lemmas
beside the operations say which entries an insertion, a removal and a seek yield.
-/

namespace DataflowOps

/-- A finite map whose entries are listed in strictly ascending key order. -/
structure OrderedMap (Key Value : Type) [LT Key] where
  entries : List (Key × Value)
  ascending : entries.Pairwise (fun left right => left.1 < right.1)

namespace OrderedMap

variable {Key Value : Type} [LT Key]

instance [DecidableEq Key] [DecidableEq Value] : DecidableEq (OrderedMap Key Value) :=
  fun left right => decidable_of_iff (left.entries = right.entries)
    ⟨fun equal => by cases left; cases right; cases equal; rfl, fun equal => congrArg entries equal⟩

def empty : OrderedMap Key Value :=
  ⟨[], .nil⟩

def keys (map : OrderedMap Key Value) : List Key :=
  map.entries.map Prod.fst

def size (map : OrderedMap Key Value) : Nat :=
  map.entries.length

/-- Entries with `key` bound to `value`: an entry of that key is replaced, otherwise a new one takes
its place in the order. -/
def insertEntry [DecidableLT Key] (key : Key) (value : Value) :
    List (Key × Value) → List (Key × Value)
  | [] => [(key, value)]
  | entry :: rest =>
    if key < entry.1 then (key, value) :: entry :: rest
    else if entry.1 < key then entry :: insertEntry key value rest
    else (key, value) :: rest

theorem mem_insertEntry [DecidableLT Key] {key : Key} {value : Value} {entry : Key × Value}
    {entries : List (Key × Value)} (member : entry ∈ insertEntry key value entries) :
    entry = (key, value) ∨ entry ∈ entries := by
  induction entries with
  | nil => exact .inl (List.mem_singleton.1 member)
  | cons head rest induction =>
    unfold insertEntry at member
    split at member
    · exact List.mem_cons.1 member
    · split at member
      · rcases List.mem_cons.1 member with rfl | member
        · exact .inr List.mem_cons_self
        · exact (induction member).imp_right (List.mem_cons_of_mem _)
      · exact (List.mem_cons.1 member).imp_right (List.mem_cons_of_mem _)

theorem insertEntry_ascending [DecidableLT Key] [StrictTotalOrder Key] (key : Key) (value : Value)
    {entries : List (Key × Value)}
    (ascending : entries.Pairwise (fun left right => left.1 < right.1)) :
    (insertEntry key value entries).Pairwise (fun left right => left.1 < right.1) := by
  induction entries with
  | nil => exact List.pairwise_singleton _ _
  | cons head rest induction =>
    have ⟨headBefore, restAscending⟩ := List.pairwise_cons.1 ascending
    unfold insertEntry
    split
    · next keyBefore =>
      refine List.pairwise_cons.2 ⟨fun entry member => ?_, ascending⟩
      rcases List.mem_cons.1 member with rfl | member
      · exact keyBefore
      · exact StrictTotalOrder.trans keyBefore (headBefore entry member)
    · next keyNotBefore =>
      split
      · next headBeforeKey =>
        refine List.pairwise_cons.2 ⟨fun entry member => ?_, induction restAscending⟩
        rcases mem_insertEntry member with rfl | member
        · exact headBeforeKey
        · exact headBefore entry member
      · next headNotBefore =>
        have sameKey : head.1 = key := StrictTotalOrder.connected headNotBefore keyNotBefore
        exact List.pairwise_cons.2
          ⟨fun entry member => sameKey ▸ headBefore entry member, restAscending⟩

def insert [DecidableLT Key] [StrictTotalOrder Key] (key : Key) (value : Value)
    (map : OrderedMap Key Value) : OrderedMap Key Value :=
  ⟨insertEntry key value map.entries, insertEntry_ascending key value map.ascending⟩

theorem mem_entries_insert [DecidableLT Key] [StrictTotalOrder Key] {key : Key} {value : Value}
    {map : OrderedMap Key Value} {entry : Key × Value} :
    entry ∈ (map.insert key value).entries ↔
      entry = (key, value) ∨ entry.1 ≠ key ∧ entry ∈ map.entries := by
  obtain ⟨entries, ascending⟩ := map
  show entry ∈ insertEntry key value entries ↔ _ ∨ _ ∧ entry ∈ entries
  induction entries with
  | nil => simp [insertEntry]
  | cons head rest induction =>
    have ⟨headBefore, restAscending⟩ := List.pairwise_cons.1 ascending
    have differs {left right : Key} (before : left < right) : left ≠ right :=
      fun equal => StrictTotalOrder.irrefl right (equal ▸ before)
    unfold insertEntry
    split
    · next keyBefore =>
      have others : ∀ other ∈ head :: rest, other.1 ≠ key := by
        intro other member
        rcases List.mem_cons.1 member with rfl | member
        · exact (differs keyBefore).symm
        · exact (differs (StrictTotalOrder.trans keyBefore (headBefore other member))).symm
      constructor
      · intro member
        exact (List.mem_cons.1 member).imp_right fun member => ⟨others entry member, member⟩
      · rintro (rfl | ⟨_, member⟩)
        · exact List.mem_cons_self
        · exact List.mem_cons_of_mem _ member
    · next keyNotBefore =>
      split
      · next headBeforeKey =>
        rw [List.mem_cons, induction restAscending, List.mem_cons]
        constructor
        · rintro (rfl | rfl | ⟨different, member⟩)
          · exact .inr ⟨differs headBeforeKey, .inl rfl⟩
          · exact .inl rfl
          · exact .inr ⟨different, .inr member⟩
        · rintro (rfl | ⟨different, rfl | member⟩)
          · exact .inr (.inl rfl)
          · exact .inl rfl
          · exact .inr (.inr ⟨different, member⟩)
      · next headNotBefore =>
        have sameKey : head.1 = key := StrictTotalOrder.connected headNotBefore keyNotBefore
        rw [List.mem_cons, List.mem_cons]
        constructor
        · rintro (rfl | member)
          · exact .inl rfl
          · exact .inr ⟨sameKey ▸ (differs (headBefore entry member)).symm, .inr member⟩
        · rintro (rfl | ⟨different, rfl | member⟩)
          · exact .inl rfl
          · exact absurd sameKey different
          · exact .inr member

def erase [DecidableEq Key] (key : Key) (map : OrderedMap Key Value) : OrderedMap Key Value :=
  ⟨map.entries.filter (fun entry => entry.1 ≠ key), map.ascending.filter _⟩

theorem mem_entries_erase [DecidableEq Key] {key : Key} {map : OrderedMap Key Value}
    {entry : Key × Value} :
    entry ∈ (map.erase key).entries ↔ entry.1 ≠ key ∧ entry ∈ map.entries := by
  simp [erase, and_comm]

/-- Entries from the lower end `start` on, in ascending key order. -/
def entriesFrom [DecidableLT Key] (start : Bound Key) (map : OrderedMap Key Value) :
    List (Key × Value) :=
  map.entries.dropWhile (fun entry => !start.admitsFromBelow entry.1)

/-- A seek yields exactly the entries that the bound admits. -/
theorem entriesFrom_eq_filter [DecidableLT Key] [StrictTotalOrder Key] (start : Bound Key)
    (map : OrderedMap Key Value) :
    map.entriesFrom start = map.entries.filter (fun entry => start.admitsFromBelow entry.1) := by
  obtain ⟨entries, ascending⟩ := map
  unfold entriesFrom
  induction entries with
  | nil => rfl
  | cons head rest induction =>
    have ⟨headBefore, restAscending⟩ := List.pairwise_cons.1 ascending
    cases admitted : start.admitsFromBelow head.1 with
    | false => simpa [List.dropWhile_cons, admitted] using induction restAscending
    | true =>
      have all : ∀ entry ∈ rest, start.admitsFromBelow entry.1 = true :=
        fun entry member => Bound.admitsFromBelow_of_lt admitted (headBefore entry member)
      simp [admitted, List.filter_eq_self.2 all]

end OrderedMap

end DataflowOps
