import DataflowOps.Proofs.Fetches
import DataflowOps.Scan.Cluster

/-!
# What a scan hands out

A scan fetches rows and columns one by one, each time from the store as other clients have left it.
This file shows that it amounts to offering the entries visible at its opening one after the other,
as long as what other clients do does not change what was visible then.
-/

namespace DataflowOps

namespace ScannedCluster

variable {Sink : Type}

/-- Offers entries to a destination one after the other. Each of them, and the end after the last
one, is reached by fetches that fail when the engine is offline; a row is counted with its first
entry. `last` is the row counted last. -/
def offer (accept : Entry → Cluster → Sink → Delivery × Cluster × Sink) :
    List Entry → (last : Option Bytes) → ScanProgress → Cluster → Sink →
      ScanRun (ScannedCluster Sink)
  | [], _, progress, cluster, sink =>
    if cluster.engine.available then (system accept).complete progress ⟨cluster, none, sink⟩
    else (system accept).fail Engine.offline progress ⟨cluster, none, sink⟩
  | entry :: rest, last, progress, cluster, sink =>
    if cluster.engine.available then
      let counted :=
        if last = some entry.row then progress else { progress with rows := progress.rows + 1 }
      let (delivery, cluster, sink) := accept entry cluster sink
      if delivery.accepted then
        (offer accept rest (some entry.row) { counted with entries := counted.entries + 1 } cluster
          sink).after delivery.events
      else ((system accept).stop counted ⟨cluster, none, sink⟩).after delivery.events
    else (system accept).fail Engine.offline progress ⟨cluster, none, sink⟩

/-- Whether the entries visible at a timestamp stay the same while the listed ones are accepted. -/
def Undisturbed (accept : Entry → Cluster → Sink → Delivery × Cluster × Sink)
    (readAt : Timestamp) (visible : List Entry) : List Entry → Cluster → Sink → Prop
  | [], cluster, _ => cluster.engine.visibleAt readAt = visible
  | entry :: rest, cluster, sink =>
    cluster.engine.visibleAt readAt = visible ∧
      ((accept entry cluster sink).1.accepted = true →
        Undisturbed accept readAt visible rest (accept entry cluster sink).2.1
          (accept entry cluster sink).2.2)

variable {accept : Entry → Cluster → Sink → Delivery × Cluster × Sink} {readAt : Timestamp}
  {visible entries : List Entry} {cluster : Cluster} {sink : Sink}

theorem Undisturbed.visible_eq
    (undisturbed : Undisturbed accept readAt visible entries cluster sink) :
    cluster.engine.visibleAt readAt = visible := by
  cases entries with
  | nil => exact undisturbed
  | cons entry rest => exact undisturbed.1

theorem offer_of_offline (offline : cluster.engine.available = false) (last : Option Bytes)
    (progress : ScanProgress) :
    offer accept entries last progress cluster sink =
      (system accept).fail Engine.offline progress ⟨cluster, none, sink⟩ := by
  cases entries <;> simp [offer, offline]

theorem offer_enter_row {entry : Entry} {rest : List Entry} {last : Option Bytes}
    (available : cluster.engine.available = true) (entered : last ≠ some entry.row)
    (progress : ScanProgress) :
    offer accept (entry :: rest) (some entry.row) { progress with rows := progress.rows + 1 }
        cluster sink =
      offer accept (entry :: rest) last progress cluster sink := by
  simp [offer, available, entered]

/-- Where a scan stands: the row it is in, the row counted last, the entries still to be handed out
and the fetches that this takes. -/
inductive Position (visible : List Entry) (view : View) :
    (row last : Option Bytes) → List Entry → Nat → Prop where
  | betweenRows {last : Option Bytes} {entries : List Entry}
    (left : view.snapshot.remaining visible = entries)
    (apart : ∀ entry ∈ entries, last ≠ some entry.row) :
    Position visible view none last entries (3 * entries.length + 1)
  | inRow (cursor : ColumnCursor) {columns rest : List Entry}
    (here : view.cursor = some cursor) (standing : cursor.Standing)
    (inside : cursor.remaining view.snapshot.query visible = columns)
    (left : view.snapshot.remaining visible = rest)
    (apart : ∀ entry ∈ rest, cursor.row ≠ entry.row) :
    Position visible view (some cursor.row) (some cursor.row) (columns ++ rest)
      (columns.length + 3 * rest.length + 2)

theorem Position.enterRow {view : View} {entry : Entry} {rest : List Entry}
    (ascending : Entry.Ascending visible)
    (left : view.snapshot.remaining visible = entry :: rest) :
    ∃ needed, Position visible ⟨view.snapshot.past entry.row, some (.atStart entry.row)⟩
        (some entry.row) (some entry.row) (entry :: rest) needed ∧
      needed ≤ 3 * (entry :: rest).length := by
  have split := left.symm.trans (Snapshot.remaining_eq_append ascending left)
  have present :
      entry ∈ (ColumnCursor.atStart entry.row).remaining view.snapshot.query visible := by
    rcases Snapshot.mem_remaining_iff.1 (left ▸ List.mem_cons_self) with ⟨_, stored, _, _, selected⟩
    exact ColumnCursor.mem_remaining_iff.2 ⟨stored, rfl, selected, rfl⟩
  have some := List.length_pos_of_mem present
  rw [split]
  refine ⟨_, .inRow (.atStart entry.row) rfl (by simp) rfl rfl ?_, ?_⟩
  · intro other member
    have admitted := (Snapshot.mem_remaining_iff.1 member).2.2.1
    simp only [Snapshot.past, Bound.admitsFromBelow, decide_eq_true_eq] at admitted
    exact StrictTotalOrder.ne_of_lt admitted
  · rw [List.length_append]
    omega

section Fetches

variable {timeout limit : Nat} {view next : View} {progress : ScanProgress}

/-- One fetch of a row; its answer is there at once, whatever the timeout. -/
theorem fetchFrom_none {answer : Except CallFailure (Option Bytes)}
    (fetched : view.fetchRow cluster.engine = (answer, next)) :
    (system accept).fetchFrom timeout (limit + 1) none progress ⟨cluster, some view, sink⟩ =
      match answer with
      | .error error => some ((system accept).fail error progress ⟨cluster, some next, sink⟩)
      | .ok none => some ((system accept).complete progress ⟨cluster, some next, sink⟩)
      | .ok (some row) =>
        (system accept).fetchFrom timeout limit (some row)
          { progress with rows := progress.rows + 1 } ⟨cluster, some next, sink⟩ := by
  have call : (system accept).fetchRow ⟨cluster, some view, sink⟩ =
      (.immediate answer, ⟨cluster, some next, sink⟩) := by
    simp only [system, fetched]
  simp only [ScanSystem.fetchFrom, call, Reply.within_immediate, Nat.add_zero]
  rcases answer with error | _ | found <;> rfl

theorem fetchFrom_some {row : Bytes} {answer : Except CallFailure (Option (Column × Bytes))}
    (fetched : view.fetchColumn cluster.engine = (answer, next)) :
    (system accept).fetchFrom timeout (limit + 1) (some row) progress
        ⟨cluster, some view, sink⟩ =
      match answer with
      | .error error => some ((system accept).fail error progress ⟨cluster, some next, sink⟩)
      | .ok none =>
        (system accept).fetchFrom timeout limit none progress ⟨cluster, some next, sink⟩
      | .ok (some (column, value)) =>
        let (delivery, cluster, sink) := accept ⟨row, column, value⟩ cluster sink
        if delivery.accepted then
          ((system accept).fetchFrom timeout limit (some row)
            { progress with entries := progress.entries + 1 } ⟨cluster, some next, sink⟩).map
              (·.after delivery.events)
        else
          some (((system accept).stop progress ⟨cluster, some next, sink⟩).after
            delivery.events) := by
  have call : (system accept).fetchColumn ⟨cluster, some view, sink⟩ =
      (.immediate answer, ⟨cluster, some next, sink⟩) := by
    simp only [system, fetched]
  simp only [ScanSystem.fetchFrom, call, Reply.within_immediate, Nat.add_zero]
  rcases answer with error | _ | found <;> rfl

end Fetches

/-- A scan that is given enough fetches offers the entries that its view still holds. -/
theorem fetchFrom_eq_offer (timeout : Nat) (view : View) (progress : ScanProgress)
    {row last : Option Bytes} {needed limit : Nat} (ascending : Entry.Ascending visible)
    (undisturbed : Undisturbed accept view.snapshot.readAt visible entries cluster sink)
    (position : Position visible view row last entries needed) (enough : needed ≤ limit) :
    (system accept).fetchFrom timeout limit row progress ⟨cluster, some view, sink⟩ =
      some (offer accept entries last progress cluster sink) := by
  -- Each fetch lowers `needed`, which is what the induction on the limit relies on.
  induction limit generalizing view row last needed entries cluster sink progress with
  | zero => cases position <;> omega
  | succ limit ih =>
      have sees := undisturbed.visible_eq
      cases position with
      | betweenRows left apart =>
          cases available : cluster.engine.available with
          | false =>
              rw [fetchFrom_none (View.fetchRow_of_offline available), offer_of_offline available]
              rfl
          | true =>
              cases entries with
              | nil =>
                  rw [fetchFrom_none (View.fetchRow_of_remaining_nil available (sees ▸ left))]
                  simp [offer, available]
                  rfl
              | cons entry rest =>
                  rw [fetchFrom_none (View.fetchRow_of_remaining_cons available (sees ▸ left)),
                    ← offer_enter_row available (apart entry List.mem_cons_self)]
                  rcases Position.enterRow ascending left with ⟨needed, entered, fewer⟩
                  exact ih _ _ undisturbed entered (by omega)
      | @inRow cursor columns rest here standing inside left apart =>
          cases available : cluster.engine.available with
          | false =>
              rw [fetchFrom_some (View.fetchColumn_of_offline available here),
                offer_of_offline available]
              rfl
          | true =>
              cases columns with
              | nil =>
                  rcases View.fetchColumn_of_remaining_nil available here standing
                    (sees ▸ inside) with ⟨next, fetched⟩
                  have ended : Position visible { view with cursor := some next } none
                      (some cursor.row) rest (3 * rest.length + 1) :=
                    .betweenRows left fun entry member same =>
                      apart entry member (Option.some.inj same)
                  rw [List.length_nil] at enough
                  rw [fetchFrom_some fetched]
                  exact ih _ _ undisturbed ended (by omega)
              | cons entry columns =>
                  rcases View.fetchColumn_of_remaining_cons available here standing
                    (sees ▸ inside) with ⟨timestamp, fetched⟩
                  have sameRow : cursor.row = entry.row :=
                    (ColumnCursor.mem_remaining_iff.1 (inside ▸ List.mem_cons_self)).2.1.symm
                  simp only [sameRow] at apart
                  have further : Position visible { view with cursor := some (.on entry timestamp) }
                      (some entry.row) (some entry.row) (columns ++ rest)
                      (columns.length + 3 * rest.length + 2) :=
                    .inRow (.on entry timestamp) rfl (by simp)
                      (ColumnCursor.remaining_on ascending inside timestamp) left apart
                  rw [List.length_cons] at enough
                  rw [fetchFrom_some fetched, sameRow]
                  simp only [List.cons_append, offer, available, if_true]
                  cases accepted : (accept entry cluster sink).1.accepted with
                  | false => rfl
                  | true =>
                      have offered := ih { view with cursor := some (.on entry timestamp) }
                        { progress with entries := progress.entries + 1 }
                        (undisturbed.2 accepted) further (by omega)
                      simp only [List.append_eq, if_true, offered, Option.map_some]

def opened (cluster : Cluster) : Cluster := { cluster with engine := cluster.engine.tick }

theorem scan_of_offline (offline : cluster.engine.available = false) (timeout : Nat)
    (query : Query) :
    scan accept timeout query cluster sink =
      some ⟨.error ⟨Engine.offline, 0⟩, 0, ⟨cluster, none, sink⟩,
        [.scanStarted query.rows query.patterns.size, .scanFailed 0 Engine.offline]⟩ := by
  have call : (system accept).openView query ⟨cluster, none, sink⟩ =
      (.immediate (.error Engine.offline), ⟨cluster, none, sink⟩) := by
    simp [system, Engine.openSnapshot, Engine.readClock, offline]
  simp [scan, ScanSystem.scan, call]

theorem scan_eq_offer (available : cluster.engine.available = true) (timeout : Nat) (query : Query)
    (undisturbed : Undisturbed accept cluster.engine.clock.next visible
      (visible.filter query.covers) (opened cluster) sink) :
    scan accept timeout query cluster sink =
      some ((offer accept (visible.filter query.covers) none {} (opened cluster) sink).after
        [.scanStarted query.rows query.patterns.size]) := by
  let snapshot : Snapshot :=
    ⟨cluster.engine.clock.next, query, query.rows.lower, query.rows.isEmpty⟩
  have call : (system accept).openView query ⟨cluster, none, sink⟩ =
      (.immediate (.ok ()), ⟨opened cluster, some ⟨snapshot, none⟩, sink⟩) := by
    simp [system, Engine.openSnapshot, Engine.readClock, available, snapshot, opened]
  have sees : (opened cluster).engine.visibleAt cluster.engine.clock.next = visible :=
    undisturbed.visible_eq
  have ascending : Entry.Ascending visible := sees ▸ Engine.visibleAt_ascending
  have start : Position visible ⟨snapshot, none⟩ none none (visible.filter query.covers)
      (3 * (visible.filter query.covers).length + 1) :=
    .betweenRows (Snapshot.remaining_opened _ _ _) (by simp)
  -- An entry takes up to three fetches: of its row, of its column and of the end of its row.
  have enough : 3 * (visible.filter query.covers).length + 1 ≤ fetchLimit cluster := by
    have stored : visible.length ≤ cluster.engine.versions.size := by
      rw [← sees]
      exact Snapshot.length_visibleAmong_le
    have covered : (visible.filter query.covers).length ≤ visible.length :=
      List.length_filter_le ..
    simp only [fetchLimit]
    omega
  have offered := fetchFrom_eq_offer timeout ⟨snapshot, none⟩ {} ascending undisturbed start enough
  simp only [scan, ScanSystem.scan, call, Reply.within_immediate]
  rw [offered, Option.map_some]

end ScannedCluster

end DataflowOps
