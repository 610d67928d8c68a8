import DataflowOps.Proofs.Operations
import DataflowOps.Scan.Entry

/-!
# What is visible at a timestamp

An entry is visible at a timestamp if the newest version of its cell up to that timestamp holds its
value. This file walks sorted versions in the way in which rows and columns are fetched, shows that
the walk yields exactly the visible entries in ascending order, and derives from it that versions
newer than the timestamp make no difference.
-/

namespace DataflowOps

/-- Versions with their values, those of deletions without one. -/
abbrev Versions := List (VersionAddress × Option Bytes)

namespace Versions

def Ascending (versions : Versions) : Prop :=
  versions.Pairwise fun left right => left.1 < right.1

/-- Whether a version is old enough for a reader. -/
def shows (readAt : Timestamp) (version : VersionAddress) : Bool :=
  !decide (readAt < version.timestamp)

theorem cell_not_lt_of_mem {head : VersionAddress × Option Bytes} {rest : Versions}
    (ascending : Ascending (head :: rest)) :
    ∀ entry ∈ head :: rest, ¬ entry.1.cell < head.1.cell := by
  intro entry member
  rcases List.mem_cons.1 member with rfl | member
  · exact StrictTotalOrder.irrefl _
  · exact VersionAddress.cell_not_lt_of_lt ((List.pairwise_cons.1 ascending).1 entry member)

end Versions

namespace Entry

def cell (entry : Entry) : CellAddress := ⟨entry.row, entry.column⟩

def Ascending (entries : List Entry) : Prop :=
  entries.Pairwise fun left right => left.cell < right.cell

theorem Ascending.eq_of_mem_iff {left right : List Entry} (leftAscending : Ascending left)
    (rightAscending : Ascending right) (same : ∀ entry, entry ∈ left ↔ entry ∈ right) :
    left = right :=
  eq_of_ascending (fun _ _ => StrictTotalOrder.asymm) leftAscending rightAscending same

/-- The newest version of the entry's cell that is not newer than `readAt` holds its value. -/
def VisibleAmong (entry : Entry) (readAt : Timestamp) (versions : Versions) : Prop :=
  ∃ timestamp, (⟨entry.cell, timestamp⟩, some entry.value) ∈ versions ∧ ¬ readAt < timestamp ∧
    ∀ other ∈ versions, other.1.cell = entry.cell → ¬ readAt < other.1.timestamp →
      ¬ timestamp < other.1.timestamp

variable {readAt : Timestamp} {entry : Entry} {rest : Versions}
  {head : VersionAddress × Option Bytes}

/-- A version that is hidden or of another cell does not matter to an entry. -/
theorem visibleAmong_cons_of_irrelevant (head : VersionAddress × Option Bytes)
    (irrelevant : readAt < head.1.timestamp ∨ head.1.cell ≠ entry.cell) :
    entry.VisibleAmong readAt (head :: rest) ↔ entry.VisibleAmong readAt rest := by
  constructor
  · rintro ⟨timestamp, member, shown, newest⟩
    refine ⟨timestamp, ?_, shown, fun other otherMember =>
      newest other (List.mem_cons_of_mem _ otherMember)⟩
    rcases List.mem_cons.1 member with same | member
    · rcases irrelevant with hidden | different
      · rw [← same] at hidden
        exact absurd hidden shown
      · exact absurd (congrArg (fun version => version.1.cell) same.symm) different
    · exact member
  · rintro ⟨timestamp, member, shown, newest⟩
    refine ⟨timestamp, List.mem_cons_of_mem _ member, shown, ?_⟩
    intro other otherMember sameCell otherShown
    rcases List.mem_cons.1 otherMember with rfl | otherMember
    · rcases irrelevant with hidden | different
      · exact absurd hidden otherShown
      · exact absurd sameCell different
    · exact newest other otherMember sameCell otherShown

/-- Of the versions of a cell in a sorted list, the first one that is not hidden decides. -/
theorem visibleAmong_cons_of_sameCell (ascending : Versions.Ascending (head :: rest))
    (shown : ¬ readAt < head.1.timestamp) (sameCell : head.1.cell = entry.cell) :
    entry.VisibleAmong readAt (head :: rest) ↔ head.2 = some entry.value := by
  have headBefore := (List.pairwise_cons.1 ascending).1
  obtain ⟨⟨headCell, headTimestamp⟩, value⟩ := head
  simp only at shown sameCell
  subst sameCell
  have older : ∀ other ∈ rest, other.1.cell = entry.cell →
      other.1.timestamp < headTimestamp := by
    intro other member otherCell
    rcases VersionAddress.lt_iff.1 (headBefore other member) with cellBefore | ⟨_, newer⟩
    · exact absurd otherCell.symm (StrictTotalOrder.ne_of_lt cellBefore)
    · exact newer
  constructor
  · rintro ⟨timestamp, member, _, newest⟩
    have notOlder := newest _ List.mem_cons_self rfl shown
    rcases List.mem_cons.1 member with same | member
    · exact (congrArg Prod.snd same).symm
    · exact absurd (older _ member rfl) notOlder
  · rintro rfl
    refine ⟨headTimestamp, List.mem_cons_self, shown, ?_⟩
    intro other member otherCell _
    rcases List.mem_cons.1 member with rfl | member
    · exact StrictTotalOrder.irrefl _
    · exact StrictTotalOrder.asymm (older other member otherCell)

end Entry

namespace Snapshot

/-- The visible entries among versions in ascending order. `settled` is the cell whose visible
version precedes these versions. -/
def visibleAmong (readAt : Timestamp) : (settled : Option CellAddress) → Versions → List Entry
  | _, [] => []
  | settled, (version, value) :: rest =>
    if readAt < version.timestamp ∨ settled = some version.cell then
      visibleAmong readAt settled rest
    else
      match value with
      | some value =>
        ⟨version.cell.row, version.cell.column, value⟩ ::
          visibleAmong readAt (some version.cell) rest
      | none => visibleAmong readAt (some version.cell) rest

variable {readAt : Timestamp} {settled : Option CellAddress} {versions : Versions}

theorem visibleAmong_filter_shows :
    visibleAmong readAt settled
        (versions.filter fun entry => Versions.shows readAt entry.1) =
      visibleAmong readAt settled versions := by
  induction versions generalizing settled with
  | nil => rfl
  | cons head rest ih =>
      obtain ⟨version, value⟩ := head
      by_cases hidden : readAt < version.timestamp
      · have out : Versions.shows readAt version = false := by simp [Versions.shows, hidden]
        simp [visibleAmong, hidden, out, ih]
      · have kept : Versions.shows readAt version = true := by simp [Versions.shows, hidden]
        by_cases repeated : settled = some version.cell
        · simp [visibleAmong, kept, repeated, ih]
        · cases value <;> simp [visibleAmong, hidden, kept, repeated, ih]

/-- The walk yields the visible entries, but for the cell that is settled already. -/
theorem mem_visibleAmong_iff (ascending : versions.Ascending)
    (settledBefore : ∀ cell, settled = some cell → ∀ entry ∈ versions, ¬ entry.1.cell < cell)
    {entry : Entry} :
    entry ∈ visibleAmong readAt settled versions ↔
      settled ≠ some entry.cell ∧ entry.VisibleAmong readAt versions := by
  induction versions generalizing settled with
  | nil => simp [visibleAmong, Entry.VisibleAmong]
  | cons head rest ih =>
      rcases List.pairwise_cons.1 ascending with ⟨_, restAscending⟩
      have headFirst : ∀ other ∈ rest, ¬ other.1.cell < head.1.cell := fun other member =>
        Versions.cell_not_lt_of_mem ascending other (List.mem_cons_of_mem _ member)
      have restBefore : ∀ cell, settled = some cell → ∀ entry ∈ rest, ¬ entry.1.cell < cell :=
        fun cell same other member => settledBefore cell same other (List.mem_cons_of_mem _ member)
      obtain ⟨version, value⟩ := head
      by_cases hidden : readAt < version.timestamp
      · simp only [visibleAmong, hidden, true_or, if_true]
        rw [ih restAscending restBefore,
          Entry.visibleAmong_cons_of_irrelevant (version, value) (Or.inl hidden)]
      · by_cases repeated : settled = some version.cell
        · simp only [visibleAmong, repeated, or_true, if_true]
          rw [ih restAscending (repeated ▸ restBefore)]
          apply and_congr_right
          intro different
          exact (Entry.visibleAmong_cons_of_irrelevant (version, value)
            (Or.inr fun same => different (congrArg some same))).symm
        · have settledHere : ∀ cell, some version.cell = some cell →
              ∀ other ∈ rest, ¬ other.1.cell < cell := by
            rintro cell ⟨⟩
            exact headFirst
          have walked := ih restAscending settledHere
          simp only [visibleAmong, hidden, repeated, or_self, if_false]
          by_cases same : version.cell = entry.cell
          · -- This version decides about the entry, and the rest of the walk leaves its cell out.
            rw [Entry.visibleAmong_cons_of_sameCell ascending hidden same]
            have leftOut : entry ∉ visibleAmong readAt (some version.cell) rest := by
              rw [walked]
              exact fun found => found.1 (congrArg some same)
            cases value with
            | none => simp [leftOut]
            | some value =>
                rw [List.mem_cons, or_iff_left leftOut, same, Option.some.injEq]
                constructor
                · intro found
                  exact ⟨same ▸ repeated, (congrArg Entry.value found).symm⟩
                · rintro ⟨_, rfl⟩
                  rfl
          · rw [Entry.visibleAmong_cons_of_irrelevant (version, value) (Or.inr same)]
            have unsettled (visible : entry.VisibleAmong readAt rest) :
                settled ≠ some entry.cell := by
              intro settledSame
              rcases visible with ⟨timestamp, member, _⟩
              exact same (StrictTotalOrder.connected
                (settledBefore _ settledSame _ List.mem_cons_self) (headFirst _ member))
            have elsewhere : entry ∈ visibleAmong readAt (some version.cell) rest ↔
                settled ≠ some entry.cell ∧ entry.VisibleAmong readAt rest := by
              rw [walked]
              constructor
              · rintro ⟨_, visible⟩
                exact ⟨unsettled visible, visible⟩
              · rintro ⟨_, visible⟩
                exact ⟨fun found => same (Option.some.inj found), visible⟩
            cases value with
            | none => exact elsewhere
            | some value =>
                rw [List.mem_cons, elsewhere]
                constructor
                · rintro (rfl | found)
                  · exact absurd rfl same
                  · exact found
                · exact Or.inr

theorem exists_version_of_mem_visibleAmong {entry : Entry}
    (found : entry ∈ visibleAmong readAt settled versions) :
    ∃ timestamp, (⟨entry.cell, timestamp⟩, some entry.value) ∈ versions := by
  induction versions generalizing settled with
  | nil => simp [visibleAmong] at found
  | cons head rest ih =>
      obtain ⟨version, value⟩ := head
      simp only [visibleAmong] at found
      split at found
      · rcases ih found with ⟨timestamp, member⟩
        exact ⟨timestamp, List.mem_cons_of_mem _ member⟩
      · cases value with
        | none =>
            rcases ih found with ⟨timestamp, member⟩
            exact ⟨timestamp, List.mem_cons_of_mem _ member⟩
        | some value =>
            rcases List.mem_cons.1 found with rfl | found
            · exact ⟨version.timestamp, List.mem_cons_self⟩
            · rcases ih found with ⟨timestamp, member⟩
              exact ⟨timestamp, List.mem_cons_of_mem _ member⟩

theorem visibleAmong_ascending (ascending : versions.Ascending) :
    Entry.Ascending (visibleAmong readAt settled versions) := by
  induction versions generalizing settled with
  | nil => exact List.Pairwise.nil
  | cons head rest ih =>
      rcases List.pairwise_cons.1 ascending with ⟨_, restAscending⟩
      have headFirst : ∀ other ∈ rest, ¬ other.1.cell < head.1.cell := fun other member =>
        Versions.cell_not_lt_of_mem ascending other (List.mem_cons_of_mem _ member)
      obtain ⟨version, value⟩ := head
      simp only [visibleAmong]
      split
      · exact ih restAscending
      · cases value with
        | none => exact ih restAscending
        | some value =>
            refine List.pairwise_cons.2 ⟨?_, ih restAscending⟩
            intro entry found
            have settledBefore : ∀ cell, some version.cell = some cell →
                ∀ other ∈ rest, ¬ other.1.cell < cell := by
              rintro cell ⟨⟩
              exact headFirst
            rcases (mem_visibleAmong_iff restAscending settledBefore).1 found with
              ⟨different, timestamp, member, _⟩
            exact StrictTotalOrder.lt_of_not_lt (headFirst _ member)
              (fun same => different (congrArg some same.symm))

/-- A seek that takes or leaves whole cells, but for the settled one, does so with the visible
entries. -/
theorem visibleAmong_filter (ascending : versions.Ascending) (selected : VersionAddress → Bool)
    (chosen : CellAddress → Bool)
    (settledBefore : ∀ cell, settled = some cell →
      ∀ version, selected version = true → ¬ version.cell < cell)
    (leavesSettled : ∀ cell, settled = some cell → chosen cell = false)
    (agree : ∀ version, settled ≠ some version.cell → selected version = chosen version.cell) :
    visibleAmong readAt settled (versions.filter fun entry => selected entry.1) =
      (visibleAmong readAt none versions).filter fun entry => chosen entry.cell := by
  have filtered : Versions.Ascending (versions.filter fun entry => selected entry.1) :=
    ascending.filter _
  have settledBeforeAll : ∀ cell, settled = some cell →
      ∀ entry ∈ versions.filter (fun entry => selected entry.1), ¬ entry.1.cell < cell :=
    fun cell same entry member => settledBefore cell same entry.1 (List.mem_filter.1 member).2
  refine (visibleAmong_ascending filtered).eq_of_mem_iff
    ((visibleAmong_ascending ascending).filter _) ?_
  intro entry
  rw [mem_visibleAmong_iff filtered settledBeforeAll, List.mem_filter,
    mem_visibleAmong_iff ascending (by simp)]
  constructor
  · rintro ⟨unsettled, timestamp, member, shown, newest⟩
    rcases List.mem_filter.1 member with ⟨stored, taken⟩
    have wanted : chosen entry.cell = true := by
      rw [← agree ⟨entry.cell, timestamp⟩ unsettled]
      exact taken
    refine ⟨⟨by simp, timestamp, stored, shown, ?_⟩, wanted⟩
    intro other otherStored sameCell
    refine newest other (List.mem_filter.2 ⟨otherStored, ?_⟩) sameCell
    rw [agree other.1 (sameCell ▸ unsettled), sameCell]
    exact wanted
  · rintro ⟨⟨_, timestamp, stored, shown, newest⟩, taken⟩
    have unsettled : settled ≠ some entry.cell := by
      intro same
      rw [leavesSettled _ same] at taken
      cases taken
    refine ⟨unsettled, timestamp, List.mem_filter.2 ⟨stored, ?_⟩, shown, ?_⟩
    · rw [agree ⟨entry.cell, timestamp⟩ unsettled]
      exact taken
    · intro other member
      exact newest other (List.mem_filter.1 member).1

theorem length_visibleAmong_le :
    (visibleAmong readAt settled versions).length ≤ versions.length := by
  induction versions generalizing settled with
  | nil => exact Nat.le_refl 0
  | cons head rest ih =>
      obtain ⟨version, value⟩ := head
      simp only [visibleAmong, List.length_cons]
      split
      · exact Nat.le_succ_of_le ih
      · cases value with
        | none => exact Nat.le_succ_of_le ih
        | some value => exact Nat.succ_le_succ ih

end Snapshot

namespace Engine

/-- The entries of the whole store that are visible at a timestamp. -/
def visibleAt (readAt : Timestamp) (engine : Engine) : List Entry :=
  Snapshot.visibleAmong readAt none engine.versions.entries

variable {readAt : Timestamp} {engine : Engine}

theorem entriesFrom_ascending (start : Bound VersionAddress) :
    Versions.Ascending (engine.versions.entriesFrom start) := by
  rw [OrderedMap.entriesFrom_eq_filter]
  exact engine.versions.ascending.filter _

theorem visibleAt_ascending : Entry.Ascending (engine.visibleAt readAt) :=
  Snapshot.visibleAmong_ascending engine.versions.ascending

theorem mem_visibleAt_iff {entry : Entry} :
    entry ∈ engine.visibleAt readAt ↔ entry.VisibleAmong readAt engine.versions.entries := by
  rw [visibleAt, Snapshot.mem_visibleAmong_iff engine.versions.ascending (by simp)]
  simp

/-- The versions that are old enough for a reader. -/
def shownAt (readAt : Timestamp) (engine : Engine) : Versions :=
  engine.versions.entries.filter fun entry => Versions.shows readAt entry.1

/-- What is visible is read off from these versions alone. -/
theorem visibleAt_eq_visibleAmong :
    engine.visibleAt readAt = Snapshot.visibleAmong readAt none (engine.shownAt readAt) :=
  Snapshot.visibleAmong_filter_shows.symm

theorem visibleAt_congr {other : Engine} (shown : other.shownAt readAt = engine.shownAt readAt) :
    other.visibleAt readAt = engine.visibleAt readAt := by
  rw [visibleAt_eq_visibleAmong, visibleAt_eq_visibleAmong, shown]

/-- A visible entry is written in a version that is shown. -/
theorem exists_shown_of_visible {entry : Entry} (visible : entry ∈ engine.visibleAt readAt) :
    ∃ version ∈ engine.shownAt readAt, version.1.cell = entry.cell := by
  rcases mem_visibleAt_iff.1 visible with ⟨timestamp, stored, notHidden, _⟩
  refine ⟨_, List.mem_filter.2 ⟨stored, ?_⟩, rfl⟩
  simp [Versions.shows, notHidden]

theorem shownAt_foldl_applyChange {timestamp : Timestamp} (newer : readAt < timestamp)
    (batch : Batch) :
    (batch.foldl (applyChange timestamp) engine).shownAt readAt = engine.shownAt readAt := by
  have hidden (cell : CellAddress) : Versions.shows readAt ⟨cell, timestamp⟩ = false := by
    simp [Versions.shows, newer]
  induction batch generalizing engine with
  | nil => rfl
  | cons change rest ih =>
      rw [List.foldl_cons, ih]
      cases change with
      | set cell value => exact OrderedMap.filter_entries_insert (hidden cell)
      | delete cell => exact OrderedMap.filter_entries_insert (hidden cell)
      | notify cell => rfl
      | acknowledge cell => rfl

theorem lt_clock_next (opened : ¬ engine.clock < readAt)
    (room : engine.clock.ticks.toNat + 1 < UInt64.size) : readAt < engine.clock.next := by
  rw [Timestamp.lt_iff] at opened ⊢
  rw [Timestamp.next_toNat room]
  omega

/-- The versions of the past stay as they were, whatever clients do. -/
theorem shownAt_after {operation : Operation} (opened : ¬ engine.clock < readAt)
    (room : engine.takesTick operation = true → engine.clock.ticks.toNat + 1 < UInt64.size) :
    (engine.after operation).shownAt readAt = engine.shownAt readAt ∧
      ¬ (engine.after operation).clock < readAt := by
  cases ticked : engine.takesTick operation with
  | false =>
      rcases after_of_not_takesTick ticked with ⟨versions, _⟩
      rw [after_clock, ticked]
      refine ⟨?_, opened⟩
      simp only [shownAt, versions]
  | true =>
      have newer := lt_clock_next opened (room ticked)
      rw [after_clock, ticked]
      refine ⟨?_, StrictTotalOrder.asymm newer⟩
      cases operation with
      | commit batch =>
          have available : engine.available = true := ticked
          simp only [after, commit, available, if_true]
          exact shownAt_foldl_applyChange newer batch
      | readClock =>
          have available : engine.available = true := ticked
          simp only [after, readClock, available, if_true]
          rfl
      | openView query =>
          have available : engine.available = true := ticked
          simp only [after, readClock, available, if_true]
          rfl
      | _ => simp [takesTick] at ticked

end Engine

namespace Cluster

variable {readAt : Timestamp} {cluster : Cluster}

theorem shownAt_perform {operation : Operation} (opened : ¬ cluster.engine.clock < readAt)
    (room : cluster.HasRoomFor [operation]) :
    (cluster.perform operation).2.engine.shownAt readAt = cluster.engine.shownAt readAt ∧
      ¬ (cluster.perform operation).2.engine.clock < readAt := by
  rw [(cluster.perform_spec operation).1]
  exact Engine.shownAt_after opened room.next

theorem shownAt_performAll {operations : List Operation}
    (opened : ¬ cluster.engine.clock < readAt) (room : cluster.HasRoomFor operations) :
    (cluster.performAll operations).2.engine.shownAt readAt = cluster.engine.shownAt readAt ∧
      ¬ (cluster.performAll operations).2.engine.clock < readAt := by
  induction operations generalizing cluster with
  | nil => exact ⟨rfl, opened⟩
  | cons operation rest ih =>
      rcases room.cons with ⟨roomFirst, roomRest⟩
      rcases shownAt_perform opened roomFirst with ⟨shown, openedNext⟩
      rw [performAll_cons, ← shown]
      exact ih openedNext roomRest

/-- What was visible at a timestamp of the past stays as it was. -/
theorem visibleAt_perform {operation : Operation} (opened : ¬ cluster.engine.clock < readAt)
    (room : cluster.HasRoomFor [operation]) :
    (cluster.perform operation).2.engine.visibleAt readAt = cluster.engine.visibleAt readAt ∧
      ¬ (cluster.perform operation).2.engine.clock < readAt :=
  (shownAt_perform opened room).imp_left Engine.visibleAt_congr

theorem visibleAt_performAll {operations : List Operation}
    (opened : ¬ cluster.engine.clock < readAt) (room : cluster.HasRoomFor operations) :
    (cluster.performAll operations).2.engine.visibleAt readAt = cluster.engine.visibleAt readAt ∧
      ¬ (cluster.performAll operations).2.engine.clock < readAt :=
  (shownAt_performAll opened room).imp_left Engine.visibleAt_congr

/-- No view reads at a timestamp that the clock has not reached. -/
def ReadsPast (cluster : Cluster) : Prop :=
  ∀ number view, cluster.view? number = some view →
    ¬ cluster.engine.clock < view.snapshot.readAt

theorem readsPast_fresh : fresh.ReadsPast := by
  intro number view here
  simp [fresh, view?] at here

theorem ReadsPast.perform {operation : Operation} (readsPast : cluster.ReadsPast)
    (room : cluster.HasRoomFor [operation]) :
    (cluster.perform operation).2.ReadsPast := by
  intro number view here
  rcases exists_view?_of_perform here with ⟨before, opened, sameReadAt⟩ | now
  · rw [← sameReadAt]
    exact (shownAt_perform (readsPast number before opened) room).2
  · rw [now]
    exact StrictTotalOrder.irrefl _

theorem ReadsPast.performAll {operations : List Operation} (readsPast : cluster.ReadsPast)
    (room : cluster.HasRoomFor operations) :
    (cluster.performAll operations).2.ReadsPast := by
  induction operations generalizing cluster with
  | nil => exact readsPast
  | cons operation rest ih =>
      rcases room.cons with ⟨roomFirst, roomRest⟩
      exact ih (readsPast.perform roomFirst) roomRest

end Cluster

end DataflowOps
