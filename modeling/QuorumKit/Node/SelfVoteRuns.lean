/-
Self votes in the runs of a node with its log manager.

The closures of a leader keep the entries that they were queued with.  A candidate
waits for a task behind all of them, unless `last_log_id(true)` takes its shortcut.
The window of a term is then open above every index that an older closure covers.
-/

import QuorumKit.Node.LeaderStableClosure

namespace QuorumKit

namespace LoggedNode

variable {P D : Type}

/-! ### The books of the log manager -/

structure Numbered (done : StableClosure P D AppendClosure) (nentries : Nat) : Prop where
  length : done.submitted.length = nentries
  indexes : LogManager.Consecutive done.firstLogIndex done.submitted
  none : nentries = 0 → done.firstLogIndex = 0

structure ClosureBooks (currentTerm : Nat) (manager : LogManager P D AppendClosure) : Prop where
  durable : LogManager.Durable manager
  asked : ∀ ticket, .lastLogId ticket ∈ manager.pending → ticket ≤ currentTerm
  answered : ∀ ticket id, (ticket, id) ∈ manager.lastLogIds → ticket ≤ currentTerm
  numbered : ∀ done ∈ manager.held, ∀ nentries, done.context = .leader nentries →
    Numbered done nentries
  whole : ∀ done ∈ DiskTask.closures manager.pending, ∀ nentries,
    done.context = .leader nentries → done.entries = done.submitted
  stored : manager.hasError = false → ∀ done ∈ manager.readyClosures, ∀ nentries,
    done.context = .leader nentries → ∀ entry ∈ done.submitted,
      manager.storage.getEntry entry.id.index = some entry
  failed : ∀ item ∈ manager.asyncClosures, ∀ nentries, item.1.context = .leader nentries →
    item.2 ≠ 0

theorem ClosureBooks.mono {term later : Nat} {manager : LogManager P D AppendClosure}
    (books : ClosureBooks term manager) (above : term ≤ later) : ClosureBooks later manager :=
  { books with
    asked := fun ticket member => (books.asked ticket member).trans above
    answered := fun ticket id member => (books.answered ticket id member).trans above }

/-- An entry that a closure credits is below the window, or the one in memory. -/
def Current (pendingIndex : Nat) (manager : LogManager P D AppendClosure)
    (entry : LogEntry P D) : Prop :=
  entry.id.index < pendingIndex ∨
    entry.id.index ≤ manager.lastLogIndex ∧
      ∀ found ∈ manager.logsInMemory, found.id.index = entry.id.index → found = entry

/-- All entries that the closures of a leader credit are current. -/
def AllCurrent (pendingIndex : Nat) (manager : LogManager P D AppendClosure) : Prop :=
  ∀ done ∈ manager.held, ∀ nentries, done.context = .leader nentries →
    ∀ entry ∈ done.submitted, Current pendingIndex manager entry

/-- A task that waits for the flush of this term is behind every closure of a leader. -/
def WaitsLast (currentTerm : Nat) (manager : LogManager P D AppendClosure) : Prop :=
  ∀ front back, manager.pending = front ++ .lastLogId currentTerm :: back →
    ∀ done ∈ DiskTask.closures back, ∀ nentries, done.context ≠ .leader nentries

structure Credits (node : LoggedNode P D) : Prop where
  books : ClosureBooks node.currentTerm node.manager
  idle : node.state ≠ .leader → node.ballotBox.pendingIndex = 0
  behind : node.state = .candidate → WaitsLast node.currentTerm node.manager
  flushed : node.state = .candidate → ∀ id, (node.currentTerm, id) ∈ node.manager.lastLogIds →
    ClosuresWithin node.manager node.manager.lastSnapshotId.index
  current : node.state = .leader → node.manager.hasError = false →
    AllCurrent node.ballotBox.pendingIndex node.manager

variable {manager manager' : LogManager P D AppendClosure}
  {action : LogManager.Action P D AppendClosure} {term pendingIndex : Nat}

theorem Current.mono {later : Nat} {entry : LogEntry P D}
    (current : Current pendingIndex manager entry) (above : pendingIndex ≤ later)
    (last : manager.lastLogIndex ≤ manager'.lastLogIndex)
    (memory : ∀ found ∈ manager'.logsInMemory, found ∈ manager.logsInMemory) :
    Current later manager' entry := by
  rcases current with below | ⟨inLog, inMemory⟩
  · exact Or.inl (lt_of_lt_of_le below above)
  · exact Or.inr ⟨inLog.trans last, fun found member => inMemory found (memory found member)⟩

theorem ClosuresWithin.of_held {bound bound' : Nat} (within : ClosuresWithin manager bound)
    (above : bound ≤ bound')
    (held : ∀ done ∈ manager'.held, ∃ former ∈ manager.held,
      done = former ∨ done = former.written) :
    ClosuresWithin manager' bound' := by
  intro done member nentries isLeader
  obtain ⟨former, wasHeld, rfl | rfl⟩ := held done member
  · have covered := within done wasHeld nentries isLeader
    omega
  · have covered := within former wasHeld nentries isLeader
    change former.firstLogIndex + nentries ≤ bound' + 1
    omega

theorem ClosureBooks.submitted_le (books : ClosureBooks term manager) {bound : Nat}
    (within : ClosuresWithin manager bound) {done : StableClosure P D AppendClosure}
    (held : done ∈ manager.held) {nentries : Nat} (isLeader : done.context = .leader nentries)
    {entry : LogEntry P D} (member : entry ∈ done.submitted) : entry.id.index ≤ bound := by
  have numbered := books.numbered done held nentries isLeader
  have covered := within done held nentries isLeader
  obtain ⟨position, found⟩ := List.mem_iff_getElem?.mp member
  have placed := numbered.indexes position entry found
  have inside := (List.getElem?_eq_some_iff.mp found).1
  have length := numbered.length
  omega

theorem Numbered.written {done : StableClosure P D AppendClosure} {nentries : Nat}
    (numbered : Numbered done nentries) : Numbered done.written nentries :=
  ⟨numbered.length, numbered.indexes, numbered.none⟩

/-! ### Steps that append nothing -/

variable [DecidableEq P]

theorem ClosureBooks.serve (books : ClosureBooks term manager)
    (allowed : LogManager.Allowed action manager)
    (stepped : LogManager.step action manager = some manager')
    (serves : LogManager.Serves action manager manager')
    (due : ∀ ticket, action = .flushLastLogId ticket → ticket ≤ term) :
    ClosureBooks term manager' := by
  obtain ⟨performed, rest, added, before, after, _, asks⟩ := serves.queue
  constructor
  · exact books.durable.step allowed stepped
  · intro ticket member
    rw [after] at member
    rcases List.mem_append.mp member with former | new
    · refine books.asked ticket ?_
      rw [before]
      exact List.mem_append_right _ former
    · exact due ticket (asks ticket new)
  · intro ticket id member
    rcases serves.answers ticket id member with former | ⟨shortcut, _⟩ | ⟨_, taken⟩
    · exact books.answered ticket id former
    · exact due ticket shortcut
    · refine books.asked ticket ?_
      rw [taken]
      exact List.mem_cons_self
  · intro done member nentries isLeader
    obtain ⟨former, held, rfl | rfl⟩ := serves.held done member
    · exact books.numbered done held nentries isLeader
    · exact (books.numbered former held nentries isLeader).written
  · intro done member
    exact books.whole done (serves.pending_closures done member)
  · intro works done member nentries isLeader entry inside
    have noError := (books.durable.toBooked.step allowed stepped).2.2 works
    obtain ⟨log, sound, _⟩ := books.durable.sound noError
    rcases serves.ready_stored sound stepped works done member with
      ⟨still, same⟩ | ⟨former, waited, rfl, written⟩
    · rw [same]
      exact books.stored noError done still nentries isLeader entry inside
    · refine written entry ?_
      rw [books.whole former waited nentries isLeader]
      exact inside
  · intro item member
    exact books.failed item (serves.async item member)

omit [DecidableEq P] in
theorem WaitsLast.serve (waits : WaitsLast term manager)
    (serves : LogManager.Serves action manager manager') : WaitsLast term manager' := by
  obtain ⟨performed, rest, added, before, after, noClosure, _⟩ := serves.queue
  intro front back isPending done member nentries
  rw [after] at isPending
  rcases List.append_eq_append_iff.mp isPending.symm with ⟨waiting, inRest, isBack⟩ |
    ⟨taken, isFront, isAdded⟩
  · cases waiting with
    | nil =>
        rw [List.nil_append] at isBack
        rw [← isBack] at noClosure
        have inAdded : done ∈ DiskTask.closures (.lastLogId term :: back) := by
          rw [DiskTask.mem_closures] at member ⊢
          exact List.mem_cons_of_mem _ member
        rw [noClosure] at inAdded
        contradiction
    | cons task waiting =>
        obtain ⟨rfl, rfl⟩ := List.cons.inj isBack
        have inWaiting : done ∈ DiskTask.closures waiting := by
          rw [DiskTask.mem_closures] at member ⊢
          rcases List.mem_append.mp member with inside | new
          · exact inside
          · rw [← DiskTask.mem_closures, noClosure] at new
            contradiction
        refine waits (performed ++ front) waiting ?_ done inWaiting nentries
        rw [before, inRest, List.append_assoc]
  · have inAdded : done ∈ DiskTask.closures added := by
      rw [DiskTask.mem_closures] at member ⊢
      rw [isAdded]
      exact List.mem_append_right _ (List.mem_cons_of_mem _ member)
    rw [noClosure] at inAdded
    contradiction

omit [DecidableEq P] in
theorem AllCurrent.serve {later : Nat} (current : AllCurrent pendingIndex manager)
    (books : ClosureBooks term manager) (serves : LogManager.Serves action manager manager')
    (above : pendingIndex ≤ later)
    (resets : ∀ snapshot, action = .setSnapshot snapshot → manager.Resets snapshot →
      ClosuresWithin manager snapshot.lastIncludedIndex) : AllCurrent later manager' := by
  have kept : ∀ former ∈ manager.held, ∀ nentries, former.context = .leader nentries →
      ∀ entry ∈ former.submitted, Current later manager' entry := by
    intro former held nentries isLeader entry inside
    rcases serves.last with grows | ⟨snapshot, isSnapshot, isReset, emptied, last⟩
    · exact (current former held nentries isLeader entry inside).mono above grows serves.memory
    · refine Or.inr ⟨?_, ?_⟩
      · rw [last]
        exact books.submitted_le (resets snapshot isSnapshot isReset) held isLeader inside
      · rw [emptied]
        exact fun found member => absurd member List.not_mem_nil
  intro done member nentries isLeader entry inside
  obtain ⟨former, held, rfl | rfl⟩ := serves.held done member
  · exact kept done held nentries isLeader entry inside
  · exact kept former held nentries isLeader entry inside

omit [DecidableEq P] in
theorem WaitsLast.flushed (waits : WaitsLast term manager)
    (flushed : ∀ id, (term, id) ∈ manager.lastLogIds →
      ClosuresWithin manager manager.lastSnapshotId.index)
    (serves : LogManager.Serves action manager manager')
    (condition : action = .flushLastLogId term →
      manager.lastLogIndex = manager.lastSnapshotId.index →
      ClosuresWithin manager manager.lastLogIndex) :
    ∀ id, (term, id) ∈ manager'.lastLogIds →
      ClosuresWithin manager' manager'.lastSnapshotId.index := by
  intro id member
  rcases serves.answers term id member with former | ⟨isFlush, shortcut⟩ | ⟨noneReady, taken⟩
  · exact (flushed id former).of_held serves.snapshot serves.held
  · refine (condition isFlush shortcut).of_held ?_ serves.held
    rw [shortcut]
    exact serves.snapshot
  · intro done held nentries isLeader
    unfold LogManager.held at held
    rw [noneReady, List.nil_append] at held
    exact absurd isLeader (waits [] manager'.pending taken done held nentries)

omit [DecidableEq P] in
theorem ClosureBooks.current_of_flushed (books : ClosureBooks term manager)
    (within : ClosuresWithin manager manager.lastSnapshotId.index)
    (works : manager.hasError = false) : AllCurrent (manager.lastLogIndex + 1) manager := by
  obtain ⟨log, sound, _⟩ := books.durable.sound works
  intro done held nentries isLeader entry inside
  have below := books.submitted_le within held isLeader inside
  have snapshot := sound.snapshotInside
  have last := sound.last
  exact Or.inl (by omega)

/-! ### Appends -/

theorem ClosureBooks.queue {context : AppendClosure}
    {entries submitted remaining : List (LogEntry P D)} {sees : Bool}
    (books : ClosureBooks term manager)
    (allowed : LogManager.Allowed (.appendEntries context entries sees) manager)
    (stepped : manager.appendEntries context entries sees = some manager')
    (queues : LogManager.Queues context submitted remaining manager manager')
    (leads : ∀ nentries, context = .leader nentries →
      Numbered (.queued context submitted remaining) nentries ∧ remaining = submitted) :
    ClosureBooks term manager' := by
  obtain ⟨cuts, pending, _, noTicket⟩ := queues.queue
  constructor
  · exact books.durable.step allowed stepped
  · intro ticket member
    rw [pending] at member
    rcases List.mem_append.mp member with former | last
    · rcases List.mem_append.mp former with former | cut
      · exact books.asked ticket former
      · exact absurd cut (noTicket ticket)
    · simp at last
  · rw [queues.answers]
    exact books.answered
  · intro done member nentries isLeader
    rw [queues.held] at member
    rcases List.mem_append.mp member with former | new
    · exact books.numbered done former nentries isLeader
    · obtain rfl := List.mem_singleton.mp new
      exact (leads nentries isLeader).1
  · intro done member nentries isLeader
    rw [queues.closures] at member
    rcases List.mem_append.mp member with former | new
    · exact books.whole done former nentries isLeader
    · obtain rfl := List.mem_singleton.mp new
      exact (leads nentries isLeader).2
  · intro works
    rw [queues.ready, queues.storage]
    exact books.stored ((books.durable.toBooked.step allowed stepped).2.2 works)
  · rw [queues.async]
    exact books.failed

theorem ClosureBooks.refuse {context : AppendClosure} {entries : List (LogEntry P D)}
    {sees : Bool} {status : Int} (books : ClosureBooks term manager)
    (allowed : LogManager.Allowed (.appendEntries context entries sees) manager)
    (stepped : manager.appendEntries context entries sees =
      some (manager.runInBthread { context := context, submitted := entries } status))
    (leads : ∀ nentries, context = .leader nentries → status ≠ 0) :
    ClosureBooks term
      (manager.runInBthread { context := context, submitted := entries } status) := by
  refine { books with durable := books.durable.step allowed stepped, failed := ?_ }
  intro item member nentries isLeader
  rcases List.mem_append.mp member with former | new
  · exact books.failed item former nentries isLeader
  · obtain rfl := List.mem_singleton.mp new
    exact leads nentries isLeader

omit [DecidableEq P] in
theorem numbered_assigned (context : AppendClosure) (last : Nat) (entries : List (LogEntry P D)) :
    Numbered (.queued context (LogManager.assignIndexes last entries)
      (LogManager.assignIndexes last entries)) entries.length := by
  constructor
  · exact LogManager.assignIndexes_length entries last
  · intro position entry found
    cases entries with
    | nil => simp [StableClosure.queued, LogManager.assignIndexes] at found
    | cons front rest =>
        have found : (LogManager.assignIndexes last (front :: rest))[position]? = some entry := found
        rw [LogManager.assignIndexes_getElem?] at found
        obtain ⟨_, _, rfl⟩ := Option.map_eq_some_iff.mp found
        rfl
  · intro empty
    rw [List.eq_nil_of_length_eq_zero empty]
    rfl

def assigned (manager : LogManager P D AppendClosure) (context : AppendClosure)
    (entries : List (LogEntry P D)) : LogManager P D AppendClosure :=
  ({ manager with lastLogIndex := manager.lastLogIndex + entries.length } :
    LogManager P D AppendClosure).enqueue context
      (LogManager.assignIndexes manager.lastLogIndex entries)
      (LogManager.assignIndexes manager.lastLogIndex entries)

theorem queues_assigned (manager : LogManager P D AppendClosure) (context : AppendClosure)
    (entries : List (LogEntry P D)) :
    LogManager.Queues context (LogManager.assignIndexes manager.lastLogIndex entries)
      (LogManager.assignIndexes manager.lastLogIndex entries) manager
      (assigned manager context entries) :=
  LogManager.queues_enqueue context _ _ (List.append_nil _).symm rfl (fun _ => List.not_mem_nil)
    rfl rfl rfl rfl rfl

theorem AllCurrent.append {context : AppendClosure} {entries : List (LogEntry P D)}
    (current : AllCurrent pendingIndex manager) {low : Nat} {log : LogStorage P D}
    (sound : LogManager.Sound low manager log) :
    AllCurrent pendingIndex (assigned manager context entries) := by
  have last := sound.last
  have placed : ∀ position entry,
      (LogManager.assignIndexes manager.lastLogIndex entries)[position]? = some entry →
      entry.id.index = manager.lastLogIndex + 1 + position ∧ position < entries.length := by
    intro position entry found
    have inside := (List.getElem?_eq_some_iff.mp found).1
    rw [LogManager.assignIndexes_getElem?] at found
    obtain ⟨_, _, rfl⟩ := Option.map_eq_some_iff.mp found
    rw [LogManager.assignIndexes_length] at inside
    exact ⟨rfl, inside⟩
  have former_le : ∀ found ∈ manager.logsInMemory, found.id.index ≤ manager.lastLogIndex := by
    intro found member
    obtain ⟨position, isAt⟩ := List.mem_iff_getElem?.mp member
    have inside := (List.getElem?_eq_some_iff.mp isAt).1
    have indexed := sound.memory_indexed isAt
    omega
  intro done member nentries isLeader entry inside
  rw [(queues_assigned manager context entries).held] at member
  rcases List.mem_append.mp member with former | new
  · rcases current done former nentries isLeader entry inside with below | ⟨inLog, inMemory⟩
    · exact Or.inl below
    · refine Or.inr ⟨inLog.trans (Nat.le_add_right _ _), ?_⟩
      intro found member same
      rcases List.mem_append.mp member with old | appended
      · exact inMemory found old same
      · obtain ⟨position, isAt⟩ := List.mem_iff_getElem?.mp appended
        have above := (placed position found isAt).1
        omega
  · obtain rfl := List.mem_singleton.mp new
    obtain ⟨position, isAt⟩ := List.mem_iff_getElem?.mp inside
    obtain ⟨index, bound⟩ := placed position entry isAt
    refine Or.inr ⟨?_, ?_⟩
    · change entry.id.index ≤ manager.lastLogIndex + entries.length
      omega
    · intro found member same
      rcases List.mem_append.mp member with old | appended
      · have below := former_le found old
        omega
      · obtain ⟨other, isOther⟩ := List.mem_iff_getElem?.mp appended
        have index' := (placed other found isOther).1
        obtain rfl : other = position := by omega
        exact Option.some.inj (isOther.symm.trans isAt)

/-! ### Steps of the node -/

variable {node node' : LoggedNode P D}

theorem runClosure_pendingIndex (node : LoggedNode P D)
    (done : StableClosure P D AppendClosure) (status : Int) :
    (node.ballotBox.pendingIndex = 0 → node.runClosure done status = node.ballotBox) ∧
      node.ballotBox.pendingIndex ≤ (node.runClosure done status).pendingIndex := by
  unfold runClosure
  split
  · split
    · exact node.ballotBox.commitAt_pendingIndex _ _ _
    · exact ⟨fun _ => rfl, le_refl _⟩
  · exact ⟨fun _ => rfl, le_refl _⟩

theorem manage_some (stepped : node.manage action = some node') :
    ∃ manager' ballotBox', LogManager.step action node.manager = some manager' ∧
      node' = { node with manager := manager', ballotBox := ballotBox' } ∧
      (node.ballotBox.pendingIndex = 0 → ballotBox' = node.ballotBox) ∧
      node.ballotBox.pendingIndex ≤ ballotBox'.pendingIndex := by
  obtain ⟨manager', managed, rfl⟩ := Option.map_eq_some_iff.mp stepped
  refine ⟨manager', _, managed, rfl, ?_⟩
  split
  · split
    · exact node.runClosure_pendingIndex _ _
    · exact ⟨fun _ => rfl, le_refl _⟩
  · exact ⟨fun _ => rfl, le_refl _⟩

theorem Credits.manage (credits : Credits node)
    (allowed : LogManager.Allowed action node.manager)
    (notAppend : ∀ context entries sees, action ≠ .appendEntries context entries sees)
    (due : ∀ ticket, action = .flushLastLogId ticket → ticket ≤ node.currentTerm)
    (condition : FlushedBeforeVote (.manage action) node)
    (stepped : node.manage action = some node') : Credits node' := by
  obtain ⟨manager', ballotBox', managed, rfl, closed, above⟩ := manage_some stepped
  have serves := LogManager.serves_step notAppend managed
  constructor
  · exact credits.books.serve allowed managed serves due
  · intro idle
    have none := credits.idle idle
    change ballotBox'.pendingIndex = 0
    rw [closed none]
    exact none
  · exact fun isCandidate => (credits.behind isCandidate).serve serves
  · intro isCandidate
    refine (credits.behind isCandidate).flushed (credits.flushed isCandidate) serves ?_
    rintro rfl
    exact condition isCandidate rfl
  · intro isLeader works
    have noError := (credits.books.durable.toBooked.step allowed managed).2.2 works
    refine (credits.current isLeader noError).serve credits.books serves above ?_
    rintro snapshot rfl
    exact condition isLeader

theorem Credits.receiveEntries {entries : List (LogEntry P D)} {sees : Bool}
    (credits : Credits node) (follows : node.state = .follower)
    (allowed : LogManager.Allowed (.appendEntries .follower entries sees) node.manager)
    (stepped : node.manage (.appendEntries .follower entries sees) = some node') :
    Credits node' := by
  obtain ⟨manager', ballotBox', managed, rfl, closed, _⟩ := manage_some stepped
  have none := credits.idle (by rw [follows]; decide)
  have appended : node.manager.appendEntries .follower entries sees = some manager' := managed
  constructor
  · rcases LogManager.appendEntries_queues appended with ⟨status, rfl⟩ | ⟨_, _, queues⟩
    · exact credits.books.refuse allowed managed (fun _ isLeader => by contradiction)
    · exact credits.books.queue allowed managed queues (fun _ isLeader => by contradiction)
  · intro _
    change ballotBox'.pendingIndex = 0
    rw [closed none]
    exact none
  · intro isCandidate
    exact absurd (follows.symm.trans isCandidate) (by decide)
  · intro isCandidate
    exact absurd (follows.symm.trans isCandidate) (by decide)
  · intro isLeader
    exact absurd (follows.symm.trans isLeader) (by decide)

theorem Credits.applyEntries {entries : List (LogEntry P D)} {sees : Bool}
    (credits : Credits node) (leads : node.state = .leader)
    (unplaced : ∀ entry ∈ entries, entry.id.index = 0)
    (allowed : LogManager.Allowed (.appendEntries (.leader entries.length) entries sees)
      node.manager)
    (stepped : node.manage (.appendEntries (.leader entries.length) entries sees) = some node') :
    Credits node' := by
  obtain ⟨manager', ballotBox', managed, rfl, closed, above⟩ := manage_some stepped
  constructor
  · rcases LogManager.appendEntries_leader unplaced managed with rfl | rfl
    · exact credits.books.refuse allowed managed (fun _ _ => by decide)
    · refine credits.books.queue allowed managed (queues_assigned node.manager _ entries) ?_
      intro nentries isLeader
      obtain rfl := AppendClosure.leader.inj isLeader
      exact ⟨numbered_assigned _ _ entries, rfl⟩
  · exact fun idle => absurd leads idle
  · intro isCandidate
    exact absurd (leads.symm.trans isCandidate) (by decide)
  · intro isCandidate
    exact absurd (leads.symm.trans isCandidate) (by decide)
  · intro isLeader works
    have noError := (credits.books.durable.toBooked.step allowed managed).2.2 works
    obtain ⟨log, sound, _⟩ := credits.books.durable.sound noError
    have current : AllCurrent ballotBox'.pendingIndex node.manager := by
      intro done held nentries isLeader' entry inside
      exact (credits.current isLeader noError done held nentries isLeader' entry inside).mono above
        (le_refl _) (fun _ member => member)
    rcases LogManager.appendEntries_leader unplaced managed with rfl | rfl
    · exact current
    · exact current.append sound

omit [DecidableEq P] in
theorem Credits.ballots (credits : Credits node) {ballotBox' : BallotBox P}
    (closed : node.ballotBox.pendingIndex = 0 → ballotBox'.pendingIndex = 0)
    (above : node.ballotBox.pendingIndex ≤ ballotBox'.pendingIndex) :
    Credits { node with ballotBox := ballotBox' } := by
  refine { credits with idle := fun idle => closed (credits.idle idle), current := ?_ }
  intro isLeader works done held nentries isLeader' entry inside
  exact (credits.current isLeader works done held nentries isLeader' entry inside).mono above
    (le_refl _) (fun _ member => member)

omit [DecidableEq P] in
theorem Credits.electSelf (credits : Credits node)
    (allowed : node.state = .follower ∨ node.state = .candidate) : Credits node.electSelf := by
  have unasked : .lastLogId (node.currentTerm + 1) ∉ node.manager.pending := by
    intro member
    have bound := credits.books.asked _ member
    omega
  constructor
  · exact credits.books.mono (Nat.le_succ _)
  · intro _
    refine credits.idle ?_
    rintro leads
    rw [leads] at allowed
    rcases allowed with follows | stands <;> contradiction
  · intro _ front back isPending
    refine absurd ?_ unasked
    have isPending : node.manager.pending = _ := isPending
    rw [isPending]
    exact List.mem_append_right _ List.mem_cons_self
  · intro _ id member
    have bound : node.currentTerm + 1 ≤ node.currentTerm := credits.books.answered _ id member
    omega
  · intro isLeader
    contradiction

omit [DecidableEq P] in
theorem Credits.becomeLeader (credits : Credits node)
    (allowed : ∃ lastLogId, (node.currentTerm, lastLogId) ∈ node.manager.lastLogIds)
    (stepped : node.becomeLeader = some node') : Credits node' := by
  unfold LoggedNode.becomeLeader at stepped
  split at stepped
  · rename_i isCandidate
    obtain ⟨ballotBox', isReset, rfl⟩ := Option.map_eq_some_iff.mp stepped
    have opened : ballotBox'.pendingIndex = node.manager.lastLogIndex + 1 := by
      unfold BallotBox.resetPendingIndex at isReset
      split at isReset
      · obtain rfl := Option.some.inj isReset
        rfl
      · contradiction
    obtain ⟨lastLogId, answered⟩ := allowed
    refine { books := credits.books, idle := ?_, behind := ?_, flushed := ?_, current := ?_ }
    · exact fun idle => absurd rfl idle
    · intro stands
      contradiction
    · intro stands
      contradiction
    · intro _ works
      change AllCurrent ballotBox'.pendingIndex node.manager
      rw [opened]
      exact credits.books.current_of_flushed (credits.flushed isCandidate lastLogId answered) works
  · contradiction

omit [DecidableEq P] in
theorem Credits.stepDown (credits : Credits node) (term : Nat) : Credits (node.stepDown term) := by
  unfold LoggedNode.stepDown
  split
  · exact credits
  · refine { books := ?_, idle := ?_, behind := ?_, flushed := ?_, current := ?_ }
    · exact credits.books.mono (Nat.le_max_left _ _)
    · intro _
      split
      · rfl
      · rename_i follows
        refine credits.idle ?_
        intro leads
        rw [leads] at follows
        exact follows rfl
    · intro stands
      contradiction
    · intro stands
      contradiction
    · intro isLeader
      contradiction

theorem Credits.step {action : Action P D} (credits : Credits node)
    (allowed : Allowed action node) (condition : FlushedBeforeVote action node)
    (stepped : LoggedNode.step action node = some node') : Credits node' := by
  cases action with
  | electSelf =>
      obtain rfl := Option.some.inj stepped
      exact credits.electSelf allowed
  | becomeLeader => exact credits.becomeLeader allowed stepped
  | stepDown term =>
      obtain rfl := Option.some.inj stepped
      exact credits.stepDown term
  | appendPendingTask conf oldConf =>
      obtain ⟨ballotBox', isAppended, rfl⟩ := Option.map_eq_some_iff.mp stepped
      have same : ballotBox'.pendingIndex = node.ballotBox.pendingIndex := by
        unfold BallotBox.appendPendingTask at isAppended
        split at isAppended
        · obtain rfl := Option.some.inj isAppended
          rfl
        · contradiction
      exact credits.ballots (fun closed => same.trans closed) same.ge
  | applyEntries entries sees =>
      exact credits.applyEntries allowed.1 (fun entry member => (allowed.2.1 entry member).1)
        allowed.2.2 stepped
  | receiveEntries entries sees => exact credits.receiveEntries allowed.1 allowed.2 stepped
  | commitAt firstLogIndex lastLogIndex peer =>
      obtain rfl := Option.some.inj stepped
      have granted := node.ballotBox.commitAt_pendingIndex firstLogIndex lastLogIndex peer
      refine credits.ballots ?_ granted.2
      intro closed
      rw [granted.1 closed]
      exact closed
  | setLastCommittedIndex lastCommittedIndex =>
      obtain ⟨⟨status, ballotBox'⟩, isSet, rfl⟩ := Option.map_eq_some_iff.mp stepped
      have same : ballotBox'.pendingIndex = node.ballotBox.pendingIndex := by
        unfold BallotBox.setLastCommittedIndex at isSet
        split_ifs at isSet <;> obtain ⟨_, rfl⟩ := Prod.mk.inj (Option.some.inj isSet) <;> rfl
      exact credits.ballots (fun closed => same.trans closed) same.ge
  | manage action => exact credits.manage allowed.2.1 allowed.1 allowed.2.2 condition stepped

theorem initial_quiet (initial : LogManager.Initial manager) :
    manager.held = [] ∧ manager.lastLogIds = [] ∧ manager.asyncClosures = [] ∧
      ∀ ticket, .lastLogId ticket ∉ manager.pending := by
  obtain ⟨storage, configManager, dataLength, _, _, ⟨_, rfl⟩ | ⟨snapshot, _, _, stepped⟩⟩ := initial
  · exact ⟨rfl, rfl, rfl, fun _ => List.not_mem_nil⟩
  · have serves := LogManager.Serves.setSnapshot stepped
    refine ⟨?_, ?_, ?_, ?_⟩
    · refine List.eq_nil_iff_forall_not_mem.mpr ?_
      intro done member
      obtain ⟨_, held, _⟩ := serves.held done member
      exact absurd held List.not_mem_nil
    · refine List.eq_nil_iff_forall_not_mem.mpr ?_
      intro answer member
      rcases serves.answers answer.1 answer.2 member with former | ⟨isFlush, _⟩ | ⟨_, taken⟩
      · exact absurd former List.not_mem_nil
      · contradiction
      · contradiction
    · refine List.eq_nil_iff_forall_not_mem.mpr ?_
      intro item member
      exact absurd (serves.async item member) List.not_mem_nil
    · obtain ⟨performed, rest, added, before, after, _, asks⟩ := serves.queue
      obtain ⟨_, none⟩ := List.append_eq_nil_iff.mp before.symm
      intro ticket member
      rw [after, none, List.nil_append] at member
      have isFlush := asks ticket member
      contradiction

theorem Initial.credits (initial : Initial node) : Credits node := by
  obtain ⟨noneHeld, unanswered, noAsync, unasked⟩ := initial_quiet initial.manager
  have noneReady : node.manager.readyClosures = [] := (List.append_eq_nil_iff.mp noneHeld).1
  have noneWaits : DiskTask.closures node.manager.pending = [] :=
    (List.append_eq_nil_iff.mp noneHeld).2
  constructor
  · constructor
    · exact LogManager.Initial.durable initial.manager
    · exact fun ticket member => absurd member (unasked ticket)
    · rw [unanswered]
      exact fun _ _ member => absurd member List.not_mem_nil
    · rw [noneHeld]
      exact fun _ member => absurd member List.not_mem_nil
    · rw [noneWaits]
      exact fun _ member => absurd member List.not_mem_nil
    · rw [noneReady]
      exact fun _ _ member => absurd member List.not_mem_nil
    · rw [noAsync]
      exact fun _ member => absurd member List.not_mem_nil
  · exact fun _ => initial.closed
  · exact fun isCandidate => absurd (initial.state.symm.trans isCandidate) (by decide)
  · exact fun isCandidate => absurd (initial.state.symm.trans isCandidate) (by decide)
  · exact fun isLeader => absurd (initial.state.symm.trans isLeader) (by decide)

/-! ### What is granted -/

omit [DecidableEq P] in
theorem Numbered.granted {done : StableClosure P D AppendClosure} {nentries index : Nat}
    (numbered : Numbered done nentries) {ballotBox : BallotBox P}
    (granted : index ∈ ballotBox.grantedBy done.firstLogIndex
      (rangeEnd done.firstLogIndex nentries)) :
    ballotBox.pendingIndex ≠ 0 ∧ ballotBox.pendingIndex ≤ index ∧
      ∃ entry ∈ done.submitted, entry.id.index = index := by
  obtain ⟨opened, above, lower, upper⟩ := BallotBox.mem_grantedBy granted
  have length := numbered.length
  unfold rangeEnd at upper
  cases nentries with
  | zero =>
      rw [numbered.none rfl] at upper
      omega
  | succ count =>
      have inside : index - done.firstLogIndex < done.submitted.length := by omega
      have placed := numbered.indexes _ _ (List.getElem?_eq_getElem inside)
      exact ⟨opened, above, _, List.getElem_mem inside, by omega⟩

omit [DecidableEq P] in
theorem getEntryFromMemory_mem {low index : Nat} {log : LogStorage P D} {entry : LogEntry P D}
    (holds : LogManager.Holds low manager log)
    (found : manager.getEntryFromMemory index = some entry) :
    entry ∈ manager.logsInMemory ∧ entry.id.index = index := by
  constructor
  · unfold LogManager.getEntryFromMemory at found
    split at found
    · split at found
      · exact List.mem_of_getElem? found
      · contradiction
    · contradiction
  · rw [holds.getEntryFromMemory_eq] at found
    split at found
    · exact (holds.wellFormed.indexed _ _ found).1
    · contradiction

theorem Credits.granted_stored (credits : Credits node)
    (managed : LogManager.step action node.manager = some manager')
    {done : StableClosure P D AppendClosure} {nentries : Nat}
    (isLeader : done.context = .leader nentries)
    (finished : manager'.finished = (done, 0) :: node.manager.finished) {index : Nat}
    (granted : index ∈ node.ballotBox.grantedBy done.firstLogIndex
      (rangeEnd done.firstLogIndex nentries))
    {entry : LogEntry P D} (found : manager'.getEntry index = some entry) :
    manager'.storage.getEntry index = some entry := by
  rcases LogManager.finished_cases managed finished with
    ⟨rfl, ⟨thread, rest, isThread, isReady⟩, works⟩ | ⟨_, thread, isThread, isTask, empty⟩ | waiting
  · have ready : done ∈ node.manager.readyClosures := by
      unfold LogManager.readyClosures
      rw [isThread]
      change done ∈ thread.ready
      rw [isReady]
      exact List.mem_cons_self
    have held : done ∈ node.manager.held := List.mem_append_left _ ready
    obtain ⟨opened, above, written, inside, rfl⟩ :=
      (credits.books.numbered done held nentries isLeader).granted granted
    have leads : node.state = .leader := by
      by_contra idle
      exact opened (credits.idle idle)
    have noError := works rfl
    obtain ⟨log, sound, _⟩ := credits.books.durable.sound noError
    have stored := credits.books.stored noError done ready nentries isLeader written inside
    have reads : manager'.getEntry = node.manager.getEntry ∧
        manager'.storage = node.manager.storage := by
      simp only [LogManager.step, LogManager.diskRun, isThread, isReady] at managed
      obtain rfl := Option.some.inj managed
      exact ⟨rfl, rfl⟩
    rw [reads.1] at found
    rw [reads.2, stored]
    unfold LogManager.getEntry at found
    split at found
    · contradiction
    · split at found
      · rename_i inMemory
        obtain rfl := Option.some.inj found
        obtain ⟨member, same⟩ := getEntryFromMemory_mem sound.toHolds inMemory
        rcases credits.current leads noError done held nentries isLeader written inside with
          below | ⟨_, agree⟩
        · omega
        · rw [agree _ member same]
      · exact stored.symm.trans found
  · have waits : done ∈ DiskTask.closures node.manager.pending := by
      rw [DiskTask.mem_closures, LogManager.pending_thread isThread, isTask]
      exact List.mem_append_right _ List.mem_cons_self
    have numbered := credits.books.numbered done (List.mem_append_right _ waits) nentries isLeader
    obtain ⟨_, _, written, inside, _⟩ := numbered.granted granted
    rw [← credits.books.whole done waits nentries isLeader, empty] at inside
    contradiction
  · exact absurd rfl (credits.books.failed _ waiting nentries isLeader)

theorem Credits.selfVote (credits : Credits node) {action : Action P D}
    (stepped : LoggedNode.step action node = some node') : SelfVoteDurable node node' := by
  intro done nentries isLeader finished index granted entry found
  have ran : node'.manager ≠ node.manager := by
    intro same
    rw [same] at finished
    exact absurd (congrArg List.length finished) (by simp)
  have managed {action : LogManager.Action P D AppendClosure}
      (stepped : node.manage action = some node') :
      node'.manager.storage.getEntry index = some entry := by
    obtain ⟨manager', _, managed, rfl, _⟩ := manage_some stepped
    exact credits.granted_stored managed isLeader finished granted found
  cases action with
  | electSelf =>
      obtain rfl := Option.some.inj stepped
      exact absurd rfl ran
  | becomeLeader =>
      simp only [LoggedNode.step, LoggedNode.becomeLeader] at stepped
      split at stepped
      · obtain ⟨_, _, rfl⟩ := Option.map_eq_some_iff.mp stepped
        exact absurd rfl ran
      · contradiction
  | stepDown term =>
      obtain rfl := Option.some.inj stepped
      refine absurd ?_ ran
      unfold LoggedNode.stepDown
      split <;> rfl
  | appendPendingTask conf oldConf =>
      obtain ⟨_, _, rfl⟩ := Option.map_eq_some_iff.mp stepped
      exact absurd rfl ran
  | applyEntries entries sees => exact managed stepped
  | receiveEntries entries sees => exact managed stepped
  | commitAt firstLogIndex lastLogIndex peer =>
      obtain rfl := Option.some.inj stepped
      exact absurd rfl ran
  | setLastCommittedIndex lastCommittedIndex =>
      obtain ⟨_, _, rfl⟩ := Option.map_eq_some_iff.mp stepped
      exact absurd rfl ran
  | manage action => exact managed stepped

theorem credits_of_reachable (reached : ((system P D).restrict FlushedBeforeVote).Reachable node) :
    Credits node := by
  induction reached with
  | start initial => exact initial.credits
  | next _ allowed stepped ih => exact ih.step allowed.1 allowed.2 stepped

/-- In a run that meets the condition, what a node grants to itself is stored. -/
theorem selfVote_durable (reached : ((system P D).restrict FlushedBeforeVote).Reachable node)
    {action : Action P D} (stepped : step action node = some node') :
    SelfVoteDurable node node' :=
  (credits_of_reachable reached).selfVote stepped

/-! ### A closure of an earlier term -/

def leaderEntry (term data : Nat) : LogEntry Nat Nat :=
  { type := .data, id := { index := 0, term := term }, data := data }

theorem leaderEntry_appendable {manager : LogManager Nat Nat AppendClosure} {term data : Nat}
    (positive : 0 < term) (unread : manager.getEntry 0 = none)
    (previous : manager.getTerm manager.lastLogIndex ≤ term)
    (applied : manager.appliedId.term ≤ term) : manager.Appendable [leaderEntry term data] := by
  constructor
  · exact Or.inl (fun entry member => List.mem_singleton.mp member ▸ rfl)
  · exact fun entry member => List.mem_singleton.mp member ▸ positive
  · exact List.pairwise_singleton _ _
  · intro entry member found read
    obtain rfl := List.mem_singleton.mp member
    exact absurd (unread.symm.trans read) (by simp)
  · intro front isFront
    obtain rfl := Option.some.inj isFront
    exact previous
  · exact fun entry member _ => List.mem_singleton.mp member ▸ applied

def freshNode : LoggedNode Nat Nat :=
  { serverId := 1, manager := LogManager.init .empty .init (fun _ => 1) }

theorem freshNode_initial : Initial freshNode := by
  refine ⟨⟨.empty, .init, _, ⟨by decide, ?_⟩, ?_, Or.inl ⟨rfl, rfl⟩⟩, rfl, rfl⟩
  · intro index entry found
    simp [LogStorage.getEntry, IndexedLog.get?, LogStorage.empty] at found
  · intro former later entry entry' _ _ found
    simp [LogStorage.getEntry, IndexedLog.get?, LogStorage.empty] at found

theorem leaderEntry_allowed {node : LoggedNode Nat Nat} {term data : Nat}
    (leads : node.state = .leader) (positive : 0 < node.currentTerm)
    (current : node.currentTerm = term)
    (unread : node.manager.getEntry 0 = none)
    (previous : node.manager.getTerm node.manager.lastLogIndex ≤ node.currentTerm ∧
      node.manager.appliedId.term ≤ node.currentTerm) :
    Allowed (.applyEntries [leaderEntry term data] false) node := by
  subst current
  refine ⟨leads, ?_, leaderEntry_appendable positive unread previous.1 previous.2⟩
  intro entry member
  obtain rfl := List.mem_singleton.mp member
  exact ⟨rfl, rfl⟩

theorem flush_allowed {node : LoggedNode Nat Nat} {ticket : Nat}
    (due : ticket ≤ node.currentTerm) : Allowed (.manage (.flushLastLogId ticket)) node := by
  refine ⟨nofun, trivial, ?_⟩
  intro other same
  exact LogManager.Action.flushLastLogId.inj same ▸ due

def threePeers : Configuration Nat := Configuration.ofList [1, 2, 3]

/-- The entry at an index, as a leader's closure is queued with it. -/
def placed (index term data : Nat) : LogEntry Nat Nat :=
  { type := .data, id := { index := index, term := term }, data := data }

def written (entry : LogEntry Nat Nat) : StableClosure Nat Nat AppendClosure :=
  (StableClosure.queued (.leader 1) [entry] [entry]).written

def leadsAgain : LoggedNode Nat Nat :=
  { freshNode with
    state := .leader
    currentTerm := 3
    ballotBox := { pendingIndex := 2, pendingMetaQueue := [Ballot.init threePeers none] }
    manager :=
      { freshNode.manager with
        storage := { first := 1, entries := [placed 1 1 7, placed 2 1 8] }
        configManager := ConfigurationManager.init.setSnapshot
          { id := { index := 1, term := 2 }, conf := threePeers, oldConf := Configuration.ofList [] }
        firstLogIndex := 2
        lastLogIndex := 2
        appliedId := { index := 1, term := 2 }
        lastSnapshotId := { index := 1, term := 2 }
        virtualFirstLogId := { index := 1, term := 2 }
        logsInMemory := [placed 2 3 9]
        diskQueue := [.append (.queued (.leader 1) [placed 2 3 9] [placed 2 3 9])]
        diskThread := some
          { lastId := { index := 2, term := 1 }
            ready := [written (placed 2 1 8)]
            task := some (.reset 2) }
        finished := [(written (placed 1 1 7), 0)]
        accepted := [placed 1 1 7, placed 2 1 8, placed 2 3 9]
        lastLogIds := [(3, { index := 1, term := 2 }), (1, {})] } }

theorem leadsAgain_reachable : (system Nat Nat).Reachable leadsAgain := by
  have follows : (system Nat Nat).Follows
      [.electSelf, .manage (.flushLastLogId 1), .becomeLeader,
        .appendPendingTask threePeers none, .applyEntries [leaderEntry 1 7] false,
        .appendPendingTask threePeers none, .applyEntries [leaderEntry 1 8] false, .stepDown 2,
        .manage (.setSnapshot
          { lastIncludedIndex := 1, lastIncludedTerm := 2, peers := [1, 2, 3] }),
        .electSelf, .manage (.flushLastLogId 3), .becomeLeader,
        .appendPendingTask threePeers none, .applyEntries [leaderEntry 3 9] false,
        .manage .diskStart, .manage .diskTake, .manage (.diskTask .done), .manage .diskTake,
        .manage (.diskTask .done), .manage .diskTake, .manage (.diskFlush 2), .manage .diskRun]
      freshNode leadsAgain := by
    refine ⟨Or.inl rfl, _, rfl, flush_allowed (le_refl _), _, rfl,
      ⟨{}, List.mem_cons_self⟩, _, rfl, rfl, _, rfl,
      leaderEntry_allowed rfl (by decide) rfl rfl (by decide), _, rfl, rfl, _, rfl,
      leaderEntry_allowed rfl (by decide) rfl rfl (by decide), _, rfl, trivial, _, rfl,
      ⟨nofun, Or.inr (Or.inl (Or.inr ⟨by decide, by decide⟩)), nofun⟩, _, rfl, Or.inl rfl, _, rfl,
      flush_allowed (le_refl _), _, rfl, ⟨_, List.mem_cons_self⟩, _, rfl, rfl, _, rfl,
      leaderEntry_allowed rfl (by decide) rfl rfl (by decide), _, rfl, ?_⟩
    exact ⟨⟨nofun, trivial, nofun⟩, _, rfl, ⟨nofun, trivial, nofun⟩, _, rfl,
      ⟨nofun, trivial, nofun⟩, _, rfl, ⟨nofun, trivial, nofun⟩, _, rfl,
      ⟨nofun, trivial, nofun⟩, _, rfl, ⟨nofun, trivial, nofun⟩, _, rfl,
      ⟨nofun, trivial, nofun⟩, _, rfl, ⟨nofun, trivial, nofun⟩, _, rfl, rfl⟩
  exact .follows _ (.start freshNode_initial) follows

theorem oldClosure_grants :
    ∃ (node node' : LoggedNode Nat Nat) (action : Action Nat Nat),
      (system Nat Nat).Reachable node ∧ Allowed action node ∧ step action node = some node' ∧
        ¬ SelfVoteDurable node node' := by
  refine ⟨leadsAgain, _, .manage .diskRun, leadsAgain_reachable, ⟨nofun, trivial, nofun⟩, rfl, ?_⟩
  intro durable
  have stored := durable (written (placed 2 1 8)) 1 rfl rfl 2 (by decide) (placed 2 3 9) rfl
  exact absurd stored (by decide)

def leadsOnce : LoggedNode Nat Nat :=
  { freshNode with
    state := .leader
    currentTerm := 1
    ballotBox := { pendingIndex := 1, pendingMetaQueue := [Ballot.init threePeers none] }
    manager :=
      { freshNode.manager with
        storage := { first := 1, entries := [placed 1 1 7] }
        lastLogIndex := 1
        logsInMemory := [placed 1 1 7]
        diskThread := some
          { lastId := { index := 1, term := 1 }
            ready := [written (placed 1 1 7)]
            ended := true }
        accepted := [placed 1 1 7]
        lastLogIds := [(1, {})] } }

theorem leadsOnce_reachable :
    ((system Nat Nat).restrict FlushedBeforeVote).Reachable leadsOnce := by
  have follows : ((system Nat Nat).restrict FlushedBeforeVote).Follows
      [.electSelf, .manage (.flushLastLogId 1), .becomeLeader,
        .appendPendingTask threePeers none, .applyEntries [leaderEntry 1 7] false,
        .manage .diskStart, .manage .diskTake, .manage (.diskTask .done), .manage .diskEnd,
        .manage (.diskFlush 1)]
      freshNode leadsOnce := by
    refine ⟨⟨Or.inl rfl, trivial⟩, _, rfl, ⟨flush_allowed (le_refl _), ?_⟩, _, rfl,
      ⟨⟨{}, List.mem_cons_self⟩, trivial⟩, _, rfl, ⟨rfl, trivial⟩, _, rfl,
      ⟨leaderEntry_allowed rfl (by decide) rfl rfl (by decide), trivial⟩, _, rfl, ?_⟩
    · intro _ _ _ done member
      contradiction
    · exact ⟨⟨⟨nofun, trivial, nofun⟩, trivial⟩, _, rfl, ⟨⟨nofun, trivial, nofun⟩, trivial⟩, _, rfl,
        ⟨⟨nofun, trivial, nofun⟩, trivial⟩, _, rfl, ⟨⟨nofun, trivial, nofun⟩, trivial⟩, _, rfl,
        ⟨⟨nofun, trivial, nofun⟩, trivial⟩, _, rfl, rfl⟩
  exact .follows _ (.start freshNode_initial) follows

theorem selfVote_durable_leadsOnce :
    ∃ node' : LoggedNode Nat Nat, step (.manage .diskRun) leadsOnce = some node' ∧
      1 ∈ leadsOnce.ballotBox.grantedBy 1 (rangeEnd 1 1) ∧ SelfVoteDurable leadsOnce node' :=
  ⟨_, rfl, by decide, selfVote_durable leadsOnce_reachable
    (show step (.manage .diskRun) leadsOnce = some _ from rfl)⟩

end LoggedNode

end QuorumKit
