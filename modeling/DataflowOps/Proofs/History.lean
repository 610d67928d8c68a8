import DataflowOps.Proofs.Fetches

/-!
# What a history leaves in the store

The versions of a store are determined by the commits that succeeded: for each cell and each commit
there is a version exactly if the commit's batch sets or deletes the cell, and it holds the effect
of the last such change. Hence the entries visible now are those of a plain map in which all
changes were made in their order.
-/

namespace DataflowOps

section Last

variable {Item Mark : Type} (mark : Item → Option Mark)

/-- The last mark in a list is that of its later part, if there is one. -/
theorem findSome?_reverse_append (earlier later : List Item) :
    (earlier ++ later).reverse.findSome? mark =
      (later.reverse.findSome? mark).or (earlier.reverse.findSome? mark) := by
  rw [List.reverse_append, List.findSome?_append]

theorem findSome?_reverse_cons (item : Item) (later : List Item) :
    (item :: later).reverse.findSome? mark = (later.reverse.findSome? mark).or (mark item) := by
  simp [List.findSome?_append]

end Last

namespace Change

/-- What a change leaves in a cell: a value, or nothing after a deletion. Other changes and changes
of other cells leave the cell as it is. -/
def effectOn? (cell : CellAddress) : Change → Option (Option Bytes)
  | set written value => if written = cell then some (some value) else none
  | delete written => if written = cell then some none else none
  | notify _ | acknowledge _ => none

/-- What the last change that sets or deletes a cell leaves in it. -/
def lastEffect (cell : CellAddress) (changes : List Change) : Option (Option Bytes) :=
  changes.reverse.findSome? (effectOn? cell)

@[simp]
theorem lastEffect_nil (cell : CellAddress) : lastEffect cell [] = none := rfl

theorem lastEffect_append (cell : CellAddress) (earlier later : List Change) :
    lastEffect cell (earlier ++ later) =
      (lastEffect cell later).or (lastEffect cell earlier) :=
  findSome?_reverse_append (effectOn? cell) earlier later

theorem lastEffect_cons (cell : CellAddress) (change : Change) (later : List Change) :
    lastEffect cell (change :: later) =
      (lastEffect cell later).or (change.effectOn? cell) :=
  findSome?_reverse_cons (effectOn? cell) change later

end Change

/-- A commit that succeeded: its timestamp and its batch. -/
abbrev Commit := Timestamp × Batch

namespace Commit

/-- The commits among calls that succeeded, in order. -/
def among (calls : List Call) : List Commit :=
  calls.filterMap fun
    | (.commit batch, .committed timestamp _) => some (timestamp, batch)
    | _ => none

theorem among_append (earlier later : List Call) :
    among (earlier ++ later) = among earlier ++ among later :=
  List.filterMap_append

@[simp]
theorem among_singleton_readClock (answer : Answer) : among [(.readClock, answer)] = [] := rfl

@[simp]
theorem among_singleton_setAvailable (available : Bool) (answer : Answer) :
    among [(.setAvailable available, answer)] = [] := rfl

@[simp]
theorem among_singleton_openView (query : Query) (answer : Answer) :
    among [(.openView query, answer)] = [] := rfl

def changes (commits : List Commit) : List Change :=
  commits.flatMap Prod.snd

theorem lastEffect_changes_eq_none_iff {commits : List Commit} {cell : CellAddress} :
    Change.lastEffect cell (changes commits) = none ↔
      ∀ commit ∈ commits, Change.lastEffect cell commit.2 = none := by
  induction commits with
  | nil => simp [changes]
  | cons commit rest ih =>
      simp only [changes] at ih
      simp [changes, Change.lastEffect_append, ih, and_comm]

theorem lastEffect_changes_eq_some_iff {commits : List Commit}
    (ascending : commits.Pairwise fun earlier later => earlier.1 < later.1) {cell : CellAddress}
    {effect : Option Bytes} :
    Change.lastEffect cell (changes commits) = some effect ↔
      ∃ commit ∈ commits, Change.lastEffect cell commit.2 = some effect ∧
        ∀ other ∈ commits, commit.1 < other.1 → Change.lastEffect cell other.2 = none := by
  induction commits with
  | nil => simp [changes]
  | cons first rest ih =>
      rcases List.pairwise_cons.1 ascending with ⟨firstBefore, restAscending⟩
      have split : changes (first :: rest) = first.2 ++ changes rest := rfl
      rw [split, Change.lastEffect_append, Option.or_eq_some_iff, ih restAscending,
        lastEffect_changes_eq_none_iff]
      constructor
      · rintro (⟨commit, member, effective, last⟩ | ⟨ineffective, effective⟩)
        · refine ⟨commit, List.mem_cons_of_mem _ member, effective, ?_⟩
          intro other otherMember later
          rcases List.mem_cons.1 otherMember with rfl | otherMember
          · exact absurd later (StrictTotalOrder.asymm (firstBefore commit member))
          · exact last other otherMember later
        · refine ⟨first, List.mem_cons_self, effective, ?_⟩
          intro other otherMember later
          rcases List.mem_cons.1 otherMember with rfl | otherMember
          · exact absurd later (StrictTotalOrder.irrefl _)
          · exact ineffective other otherMember
      · rintro ⟨commit, member, effective, last⟩
        rcases List.mem_cons.1 member with rfl | member
        · refine Or.inr ⟨?_, effective⟩
          intro other otherMember
          exact last other (List.mem_cons_of_mem _ otherMember) (firstBefore other otherMember)
        · exact Or.inl ⟨commit, member, effective, fun other otherMember =>
            last other (List.mem_cons_of_mem _ otherMember)⟩

end Commit

namespace Engine

/-- A batch leaves one version of each cell that it sets or deletes, with the last effect on it, and
all versions of other timestamps as they were. -/
theorem mem_versions_foldl_applyChange {engine : Engine} {written timestamp : Timestamp}
    {batch : Batch} {cell : CellAddress} {value : Option Bytes} :
    (⟨cell, timestamp⟩, value) ∈ (batch.foldl (applyChange written) engine).versions.entries ↔
      timestamp = written ∧ Change.lastEffect cell batch = some value ∨
        (timestamp = written → Change.lastEffect cell batch = none) ∧
          (⟨cell, timestamp⟩, value) ∈ engine.versions.entries := by
  induction batch generalizing engine with
  | nil => simp
  | cons change rest ih =>
      have inserted (target : CellAddress) (effect : Option Bytes) :
          (⟨cell, timestamp⟩, value) ∈
              (engine.versions.insert ⟨target, written⟩ effect).entries ↔
            timestamp = written ∧ target = cell ∧ effect = value ∨
              ¬ (timestamp = written ∧ target = cell) ∧
                (⟨cell, timestamp⟩, value) ∈ engine.versions.entries := by
        rw [OrderedMap.mem_entries_insert]
        simp only [Prod.mk.injEq, VersionAddress.mk.injEq, ne_eq]
        grind
      rw [List.foldl_cons, ih, Change.lastEffect_cons]
      cases change with
      | set target effect =>
          simp only [applyChange, inserted, Change.effectOn?]
          by_cases same : target = cell
          · cases Change.lastEffect cell rest <;> grind
          · simp [same]
      | delete target =>
          simp only [applyChange, inserted, Change.effectOn?]
          by_cases same : target = cell
          · cases Change.lastEffect cell rest <;> grind
          · simp [same]
      | notify target => simp [applyChange, Change.effectOn?]
      | acknowledge target => simp [applyChange, Change.effectOn?]

/-- The versions of an engine are what a list of commits wrote. -/
structure Records (engine : Engine) (commits : List Commit) : Prop where
  ascending : commits.Pairwise fun earlier later => earlier.1 < later.1
  past : ∀ commit ∈ commits, ¬ engine.clock < commit.1
  written : ∀ cell timestamp value, (⟨cell, timestamp⟩, value) ∈ engine.versions.entries ↔
    ∃ commit ∈ commits, commit.1 = timestamp ∧ Change.lastEffect cell commit.2 = some value

variable {engine : Engine} {commits : List Commit}

theorem records_fresh : Engine.fresh.Records [] where
  ascending := List.Pairwise.nil
  past := by simp
  written := by simp [fresh, OrderedMap.empty]

theorem Records.of_versions {later : Engine} (records : engine.Records commits)
    (versions : later.versions = engine.versions)
    (notEarlier : ¬ later.clock < engine.clock) : later.Records commits where
  ascending := records.ascending
  past commit member := StrictTotalOrder.not_lt_trans (records.past commit member) notEarlier
  written := by
    rw [versions]
    exact records.written

theorem Records.commit {batch : Batch} (records : engine.Records commits)
    (room : engine.clock.ticks.toNat + 1 < UInt64.size) :
    (batch.foldl (applyChange engine.clock.next) engine.tick).Records
      (commits ++ [(engine.clock.next, batch)]) := by
  have newer : ∀ commit ∈ commits, commit.1 < engine.clock.next := by
    intro commit member
    exact lt_clock_next (records.past commit member) room
  constructor
  · rw [List.pairwise_append]
    refine ⟨records.ascending, List.pairwise_singleton _ _, ?_⟩
    intro earlier member later
    simp only [List.mem_singleton]
    rintro rfl
    exact newer earlier member
  · intro commit member
    rw [foldl_applyChange_clock, tick_clock]
    rcases List.mem_append.1 member with member | member
    · exact StrictTotalOrder.asymm (newer commit member)
    · rw [List.mem_singleton.1 member]
      exact StrictTotalOrder.irrefl _
  · intro cell timestamp value
    rw [mem_versions_foldl_applyChange]
    have before := records.written cell timestamp value
    constructor
    · rintro (⟨rfl, effective⟩ | ⟨_, member⟩)
      · exact ⟨_, List.mem_append_right _ List.mem_cons_self, rfl, effective⟩
      · rcases before.1 member with ⟨commit, member, same, effective⟩
        exact ⟨commit, List.mem_append_left _ member, same, effective⟩
    · rintro ⟨commit, member, rfl, effective⟩
      rcases List.mem_append.1 member with member | member
      · refine Or.inr ⟨?_, before.2 ⟨commit, member, rfl, effective⟩⟩
        intro same
        exact absurd same (StrictTotalOrder.ne_of_lt (newer commit member))
      · rw [List.mem_singleton] at member
        subst member
        exact Or.inl ⟨rfl, effective⟩

/-- Once all commits lie in a reader's past, an entry is visible exactly if the last change of its
cell set its value. -/
theorem Records.mem_visibleAt_iff {readAt : Timestamp} {entry : Entry}
    (records : engine.Records commits) (seen : ∀ commit ∈ commits, ¬ readAt < commit.1) :
    entry ∈ engine.visibleAt readAt ↔
      Change.lastEffect entry.cell (Commit.changes commits) = some (some entry.value) := by
  rw [Engine.mem_visibleAt_iff, Commit.lastEffect_changes_eq_some_iff records.ascending]
  constructor
  · rintro ⟨timestamp, member, _, newest⟩
    rcases (records.written ..).1 member with ⟨commit, committed, rfl, effective⟩
    refine ⟨commit, committed, effective, ?_⟩
    intro other otherCommitted later
    cases hidden : Change.lastEffect entry.cell other.2 with
    | none => rfl
    | some effect =>
        have stored := (records.written entry.cell other.1 effect).2
          ⟨other, otherCommitted, rfl, hidden⟩
        exact absurd later (newest _ stored rfl (seen other otherCommitted))
  · rintro ⟨commit, committed, effective, last⟩
    refine ⟨commit.1, (records.written ..).2 ⟨commit, committed, rfl, effective⟩,
      seen commit committed, ?_⟩
    rintro ⟨⟨cell, timestamp⟩, value⟩ member rfl _ later
    rcases (records.written ..).1 member with ⟨other, otherCommitted, rfl, effect⟩
    rw [last other otherCommitted later] at effect
    cases effect

end Engine

namespace Cluster

/-- A property of an engine and the commits in its past that goes on to hold after a commit and
after everything that leaves the stored data alone. -/
structure Tracks (Holds : Engine → List Commit → Prop) : Prop where
  commit (engine : Engine) (commits : List Commit) (batch : Batch) : Holds engine commits →
    engine.clock.ticks.toNat + 1 < UInt64.size →
    Holds (batch.foldl (Engine.applyChange engine.clock.next) engine.tick)
      (commits ++ [(engine.clock.next, batch)])
  still (engine later : Engine) (commits : List Commit) : Holds engine commits →
    later.versions = engine.versions → later.notifications = engine.notifications →
    ¬ later.clock < engine.clock → Holds later commits

theorem Tracks.perform {Holds : Engine → List Commit → Prop} (tracks : Tracks Holds)
    {cluster : Cluster} {commits : List Commit} {operation : Operation}
    (holds : Holds cluster.engine commits) (room : cluster.HasRoomFor [operation]) :
    Holds (cluster.perform operation).2.engine
      (commits ++ Commit.among [(operation, (cluster.perform operation).1)]) := by
  have read (room : cluster.engine.available = true →
      cluster.engine.clock.ticks.toNat + 1 < UInt64.size) :
      Holds cluster.engine.readClock.2 commits := by
    cases available : cluster.engine.available with
    | true =>
        simp only [Engine.readClock, available, if_true]
        refine tracks.still cluster.engine cluster.engine.tick commits holds rfl rfl ?_
        apply StrictTotalOrder.asymm
        exact Engine.lt_clock_next (StrictTotalOrder.irrefl _) (room available)
    | false => simpa [Engine.readClock, available] using holds
  rw [(cluster.perform_spec operation).1]
  cases operation with
  | commit batch =>
      cases available : cluster.engine.available with
      | true =>
          simp only [Cluster.perform, Engine.after, Engine.commit, available, if_true,
            Commit.among]
          exact tracks.commit _ _ batch holds (room.next available)
      | false =>
          simpa [Cluster.perform, Engine.after, Engine.commit, available, Commit.among] using holds
  | readClock =>
      rw [Commit.among_singleton_readClock, List.append_nil]
      exact read room.next
  | openView query =>
      rw [Commit.among_singleton_openView, List.append_nil]
      exact read room.next
  | setAvailable available =>
      rw [Commit.among_singleton_setAvailable, List.append_nil]
      exact tracks.still cluster.engine _ commits holds rfl rfl (StrictTotalOrder.irrefl _)
  | _ => simpa [Engine.after, Commit.among] using holds

theorem Tracks.performAll {Holds : Engine → List Commit → Prop} (tracks : Tracks Holds)
    {cluster : Cluster} {commits : List Commit} {operations : List Operation}
    (holds : Holds cluster.engine commits) (room : cluster.HasRoomFor operations) :
    Holds (cluster.performAll operations).2.engine
      (commits ++ Commit.among (cluster.transcript operations)) := by
  induction operations generalizing cluster commits with
  | nil => simpa [Commit.among] using holds
  | cons operation rest ih =>
      rcases room.cons with ⟨first, later⟩
      have next := ih (tracks.perform holds first) later
      rw [List.append_assoc, ← Commit.among_append] at next
      exact next

theorem tracks_records : Tracks Engine.Records where
  commit _ _ _ records room := records.commit room
  still _ _ _ records versions _ notEarlier := records.of_versions versions notEarlier

theorem records_performAll {cluster : Cluster} {commits : List Commit}
    {operations : List Operation} (records : cluster.engine.Records commits)
    (room : cluster.HasRoomFor operations) :
    (cluster.performAll operations).2.engine.Records
      (commits ++ Commit.among (cluster.transcript operations)) :=
  tracks_records.performAll records room

end Cluster

/-- The values that changes leave in a plain map of cells. -/
abbrev Contents := OrderedMap CellAddress Bytes

namespace Contents

def apply (contents : Contents) : Change → Contents
  | .set cell value => contents.insert cell value
  | .delete cell => contents.erase cell
  | .notify _ | .acknowledge _ => contents

/-- What a list of changes leaves behind. -/
def afterAll (changes : List Change) : Contents :=
  changes.foldl apply .empty

/-- The entries that a query asks for. -/
def listing (query : Query) (contents : Contents) : List Entry :=
  (contents.entries.map fun (cell, value) => ⟨cell.row, cell.column, value⟩).filter query.covers

theorem mem_foldl_apply {contents : Contents} {changes : List Change} {cell : CellAddress}
    {value : Bytes} :
    (cell, value) ∈ (changes.foldl apply contents).entries ↔
      Change.lastEffect cell changes = some (some value) ∨
        Change.lastEffect cell changes = none ∧ (cell, value) ∈ contents.entries := by
  induction changes generalizing contents with
  | nil => simp
  | cons change rest ih =>
      rw [List.foldl_cons, ih, Change.lastEffect_cons]
      cases change with
      | set target effect =>
          simp only [apply, OrderedMap.mem_entries_insert, Change.effectOn?, Prod.mk.injEq]
          by_cases same : target = cell
          · cases Change.lastEffect cell rest <;> grind
          · simp [same, Ne.symm same]
      | delete target =>
          simp only [apply, OrderedMap.mem_entries_erase, Change.effectOn?]
          by_cases same : target = cell
          · cases Change.lastEffect cell rest <;> grind
          · simp [same, Ne.symm same]
      | notify target => simp [apply, Change.effectOn?]
      | acknowledge target => simp [apply, Change.effectOn?]

theorem mem_afterAll_iff {changes : List Change} {cell : CellAddress} {value : Bytes} :
    (cell, value) ∈ (afterAll changes).entries ↔
      Change.lastEffect cell changes = some (some value) := by
  simp [afterAll, mem_foldl_apply, OrderedMap.empty]

theorem mem_listing_afterAll_iff {query : Query} {changes : List Change} {entry : Entry} :
    entry ∈ (afterAll changes).listing query ↔
      query.covers entry = true ∧
        Change.lastEffect entry.cell changes = some (some entry.value) := by
  rw [listing, List.mem_filter, List.mem_map, and_comm, ← mem_afterAll_iff]
  apply and_congr_right
  intro _
  constructor
  · rintro ⟨⟨cell, value⟩, member, rfl⟩
    exact member
  · intro member
    exact ⟨_, member, rfl⟩

theorem listing_ascending {query : Query} {contents : Contents} :
    Entry.Ascending (contents.listing query) := by
  apply List.Pairwise.filter
  rw [List.pairwise_map]
  exact contents.ascending

end Contents

/-- What a query finds among the visible entries is what it finds in the plain map. -/
theorem Engine.Records.filter_visibleAt {engine : Engine} {commits : List Commit}
    {readAt : Timestamp} (records : engine.Records commits)
    (seen : ∀ commit ∈ commits, ¬ readAt < commit.1) (query : Query) :
    (engine.visibleAt readAt).filter query.covers =
      (Contents.afterAll (Commit.changes commits)).listing query := by
  have found : Entry.Ascending ((engine.visibleAt readAt).filter query.covers) :=
    visibleAt_ascending.filter _
  refine found.eq_of_mem_iff Contents.listing_ascending ?_
  intro entry
  rw [List.mem_filter, records.mem_visibleAt_iff seen, Contents.mem_listing_afterAll_iff, and_comm]

end DataflowOps
