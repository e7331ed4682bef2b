/-
How a leader finds the index from which a follower's log differs.

A probe is an empty request behind the entry before the next index.  A follower that does
not have this entry answers with its last index, and the replicator goes back: to just behind
that index or, when this is no step back, by one.  Neither log changes meanwhile.  The
search ends at an entry that both have, or where the leader has only a snapshot left.
-/

import QuorumKit.Node.FollowerLog
import QuorumKit.Replicator.InFlight

namespace QuorumKit

variable {P D C : Type}

structure ProbeRound (P D C : Type) where
  around : ReplicatorSurroundings P D C
  context : C
  stored : Bool := true
  sees : Bool := true

structure Probing (P D C : Type) where
  replicator : Replicator P D
  follower : Follower P D C

namespace Probing

def HasTerms (leader : LogManager P D C) : Prop :=
  ∀ index, leader.firstLogIndex ≤ index → index ≤ leader.lastLogIndex → leader.getTerm index ≠ 0

structure Listens (options : ReplicatorOptions P D) (node : ElectionNode P) : Prop where
  active : node.state.isActive = true
  term : node.currentTerm ≤ options.term
  leader : node.currentTerm = options.term → node.state = .follower →
    node.leaderId = none ∨ node.leaderId = some options.serverId

/-- A replicator that has nothing on its way and may call `_send_empty_entries`. -/
structure Ready (leader : LogManager P D C) (r : Replicator P D) : Prop where
  alive : r.destroyed = false
  empty : r.appendEntriesInFly = []
  noSize : r.flyingAppendEntriesSize = 0
  positive : 1 ≤ r.nextIndex
  bounded : r.nextIndex ≤ leader.lastLogIndex + 1

structure Reads (leader : LogManager P D C) (around : ReplicatorSurroundings P D C) : Prop where
  manager : around.logManager = leader
  lasts : ∃ attempt ∈ around.attempts, attempt.timerAdded = true

def Matched (leader : LogManager P D C) (probing : Probing P D C) : Prop :=
  (probing.replicator.nextIndex = 1 ∨ leader.getTerm (probing.replicator.nextIndex - 1) ≠ 0) ∧
    probing.follower.logManager.getTerm (probing.replicator.nextIndex - 1) =
      leader.getTerm (probing.replicator.nextIndex - 1)

structure Installing (leader : LogManager P D C) (r : Replicator P D) : Prop where
  empty : r.appendEntriesInFly = []
  below : r.nextIndex - 1 < leader.firstLogIndex
  unknown : leader.getTerm (r.nextIndex - 1) = 0
  later : r.nextIndex ≠ 1

structure Probed (options : ReplicatorOptions P D) (leader : LogManager P D C)
    (r : Replicator P D) (request : AppendEntriesRequest P D) : Prop where
  queue : r.appendEntriesInFly =
    [{ logIndex := r.nextIndex, entriesSize := 0, callId := r.sent.length - 1 }]
  noSize : r.flyingAppendEntriesSize = 0
  last : r.sent.getLast? = some request
  noEntries : request.entries = []
  serverId : request.serverId = options.serverId
  term : request.term = options.term
  prevLogIndex : request.prevLogIndex + 1 = r.nextIndex
  prevLogTerm : request.prevLogTerm = leader.getTerm request.prevLogIndex
  known : request.prevLogIndex = 0 ∨ request.prevLogTerm ≠ 0

variable {options : ReplicatorOptions P D} {leader : LogManager P D C}

structure SameQueue (r after : Replicator P D) : Prop where
  nextIndex : after.nextIndex = r.nextIndex
  queue : after.appendEntriesInFly = r.appendEntriesInFly
  alive : after.destroyed = r.destroyed

variable {around : ReplicatorSurroundings P D C} {r : Replicator P D}

theorem SameQueue.refl (r : Replicator P D) : SameQueue r r := ⟨rfl, rfl, rfl⟩

/-- The call ends without a request, for every replicator with this next index. -/
def Settles (nextIndex : Nat) (call : Replicator P D → Option (Replicator P D)) : Prop :=
  ∀ r, r.nextIndex = nextIndex → ∃ after, call r = some after ∧ SameQueue r after

theorem settles_block {nextIndex : Nat} {attempt : InstallAttempt}
    {retry : Replicator P D → Option (Replicator P D)}
    (settles : attempt.timerAdded = false → Settles nextIndex retry) :
    Settles nextIndex (Replicator.block attempt retry) := by
  intro r isNext
  unfold Replicator.block
  by_cases blocking : r.st = .blocking
  · rw [if_pos blocking]
    exact ⟨r, rfl, .refl r⟩
  · rw [if_neg blocking]
    cases added : attempt.timerAdded with
    | true => exact ⟨_, rfl, rfl, rfl, rfl⟩
    | false => exact settles added r isNext

theorem settles_installSnapshot {nextIndex : Nat} {attempt : InstallAttempt}
    {retry : Replicator P D → Option (Replicator P D)}
    (settles : attempt.timerAdded = false → Settles nextIndex retry) :
    Settles nextIndex (Replicator.installSnapshot options attempt retry) := by
  intro r isNext
  unfold Replicator.installSnapshot
  by_cases witness : options.nodeIsWitness
  · rw [if_pos witness]
    exact settles_block settles r isNext
  rw [if_neg witness]
  by_cases running : r.reader
  · rw [if_pos running]
    exact ⟨r, rfl, .refl r⟩
  rw [if_neg running]
  by_cases throttled : attempt.throttled
  · rw [if_pos throttled]
    exact settles_block settles r isNext
  rw [if_neg throttled]
  cases attempt.snapshot with
  | notOpened => exact ⟨_, rfl, rfl, rfl, rfl⟩
  | noUri =>
      cases settles_block settles { r with st := .installingSnapshot } isNext with
      | intro after ended => exact ⟨after, ended.1, ended.2.nextIndex, ended.2.queue, ended.2.alive⟩
  | noMeta => exact ⟨_, rfl, rfl, rfl, rfl⟩
  | found lastIncludedIndex => exact ⟨_, rfl, rfl, rfl, rfl⟩

theorem settles_sendEmptyEntries (options : ReplicatorOptions P D) {nextIndex : Nat}
    (compacted : Replicator.fillCommonFields around.logManager (nextIndex - 1) false = some none)
    (attempts : List InstallAttempt)
    (lasts : ∃ attempt ∈ attempts, attempt.timerAdded = true) :
    Settles nextIndex (Replicator.sendEmptyEntries options around attempts) := by
  induction attempts with
  | nil =>
      cases lasts with
      | intro attempt added => cases added.1
  | cons attempt rest ih =>
      have settles : attempt.timerAdded = false →
          Settles nextIndex (Replicator.sendEmptyEntries options around rest) := by
        intro notAdded
        apply ih
        cases lasts with
        | intro other added =>
            rcases List.mem_cons.mp added.1 with same | later
            · rw [same, notAdded] at added
              cases added.2
            · exact ⟨other, later, added.2⟩
      intro r isNext
      unfold Replicator.sendEmptyEntries
      rw [isNext, compacted]
      exact settles_installSnapshot settles r isNext

theorem sendEmptyEntries_known {attempts : List InstallAttempt} (nonempty : attempts ≠ [])
    (ready : Ready leader r) (reads : around.logManager = leader)
    (known : ¬ (leader.getTerm (r.nextIndex - 1) = 0 ∧ r.nextIndex - 1 ≠ 0)) :
    Replicator.sendEmptyEntries options around attempts r =
      some (r.push (Replicator.request options around
        (r.nextIndex - 1, leader.getTerm (r.nextIndex - 1)) [])) := by
  cases attempts with
  | nil => exact absurd rfl nonempty
  | cons attempt rest =>
      unfold Replicator.sendEmptyEntries Replicator.fillCommonFields
      simp only [reads, if_neg known]
      rw [if_neg (by simp [ready.empty, ready.noSize])]

theorem probed_push (ready : Ready leader r)
    (known : ¬ (leader.getTerm (r.nextIndex - 1) = 0 ∧ r.nextIndex - 1 ≠ 0)) :
    Probed options leader (r.push (Replicator.request options around
        (r.nextIndex - 1, leader.getTerm (r.nextIndex - 1)) []))
      (Replicator.request options around
        (r.nextIndex - 1, leader.getTerm (r.nextIndex - 1)) []) := by
  have positive := ready.positive
  constructor
  · change r.appendEntriesInFly ++ [_] = [_]
    rw [ready.empty]
    change [_] = [FlyingAppendEntriesRpc.mk _ _ ((r.sent ++ [_]).length - 1)]
    rw [List.length_append]
    rfl
  · exact ready.noSize
  · exact List.getLast?_concat
  · rfl
  · rfl
  · rfl
  · change r.nextIndex - 1 + 1 = r.nextIndex
    omega
  · rfl
  · rw [not_and_or, not_not] at known
    exact known.symm

def Outcome (options : ReplicatorOptions P D) (leader : LogManager P D C) (r : Replicator P D) :
    Prop :=
  (∃ request, Probed options leader r request) ∨ Installing leader r

theorem sendEmptyEntries_outcome (options : ReplicatorOptions P D) (hasTerms : HasTerms leader)
    (ready : Ready leader r) (reads : Reads leader around) :
    ∃ after, Replicator.sendEmptyEntries options around around.attempts r = some after ∧
      after.nextIndex = r.nextIndex ∧ after.destroyed = false ∧ Outcome options leader after := by
  have positive := ready.positive
  have bounded := ready.bounded
  by_cases compacted : leader.getTerm (r.nextIndex - 1) = 0 ∧ r.nextIndex - 1 ≠ 0
  · have below : r.nextIndex - 1 < leader.firstLogIndex := by
      by_contra above
      exact hasTerms (r.nextIndex - 1) (by omega) (by omega) compacted.1
    have filled : Replicator.fillCommonFields around.logManager (r.nextIndex - 1) false =
        some none := by
      unfold Replicator.fillCommonFields
      simp [reads.manager, compacted, below]
    obtain ⟨after, sent, same⟩ :=
      settles_sendEmptyEntries options filled around.attempts reads.lasts r rfl
    refine ⟨after, sent, same.nextIndex, same.alive.trans ready.alive, Or.inr ?_⟩
    constructor
    · rw [same.queue, ready.empty]
    · rw [same.nextIndex]
      exact below
    · rw [same.nextIndex]
      exact compacted.1
    · rw [same.nextIndex]
      omega
  · have nonempty : around.attempts ≠ [] := by
      cases reads.lasts with
      | intro attempt added => exact List.ne_nil_of_mem added.1
    refine ⟨_, sendEmptyEntries_known nonempty ready reads.manager compacted, ?_, ready.alive,
      Or.inl ⟨_, probed_push ready compacted⟩⟩
    rfl

theorem indexAfterMismatch_back (lastLogIndex : Nat) {nextIndex : Nat} (later : 1 < nextIndex) :
    1 ≤ Replicator.indexAfterMismatch lastLogIndex nextIndex ∧
      Replicator.indexAfterMismatch lastLogIndex nextIndex < nextIndex := by
  unfold Replicator.indexAfterMismatch
  split_ifs with shorter
  · omega
  · omega

theorem Probed.isValidRpc {request : AppendEntriesRequest P D}
    (probed : Probed options leader r request) :
    r.isValidRpc (r.sent.length - 1) (request.prevLogIndex + 1) = true := by
  unfold Replicator.isValidRpc
  rw [probed.queue, probed.prevLogIndex, List.takeWhile_cons_of_pos (by simp)]
  simp

/-- A state of the search; `log` is the follower's. -/
structure Underway (options : ReplicatorOptions P D) (leader log : LogManager P D C)
    (probing : Probing P D C) : Prop where
  alive : probing.replicator.destroyed = false
  positive : 1 ≤ probing.replicator.nextIndex
  bounded : probing.replicator.nextIndex ≤ leader.lastLogIndex + 1
  log : probing.follower.logManager = log
  listens : Listens options probing.follower.election
  outcome : Outcome options leader probing.replicator

variable {log : LogManager P D C} {probing : Probing P D C} {round : ProbeRound P D C}

theorem Underway.ready (underway : Underway options leader log probing)
    (noSize : probing.replicator.flyingAppendEntriesSize = 0)
    (later : 1 < probing.replicator.nextIndex) (lastLogIndex : Nat) :
    Ready leader { probing.replicator.resetNextIndex with
      nextIndex := Replicator.indexAfterMismatch lastLogIndex
        probing.replicator.resetNextIndex.nextIndex } := by
  have bounded := underway.bounded
  have same : probing.replicator.resetNextIndex.nextIndex = probing.replicator.nextIndex := by
    change probing.replicator.nextIndex - probing.replicator.flyingAppendEntriesSize = _
    rw [noSize, Nat.sub_zero]
  have back := indexAfterMismatch_back lastLogIndex later
  rw [← same] at back
  constructor
  · exact underway.alive
  · rfl
  · rfl
  · exact back.1
  · change Replicator.indexAfterMismatch _ _ ≤ _
    omega

theorem checkStepDown_listens {node : ElectionNode P} (listens : Listens options node)
    (stored : Bool) :
    (node.checkStepDown options.term options.serverId stored).leaderId = some options.serverId ∧
      (node.checkStepDown options.term options.serverId stored).currentTerm = options.term ∧
      (node.checkStepDown options.term options.serverId stored).state = .follower := by
  have term := listens.term
  unfold ElectionNode.checkStepDown
  by_cases steps : node.currentTerm < options.term ∨ node.state ≠ .follower ∨ node.leaderId = none
  · obtain ⟨preVoteCtx, after⟩ := ElectionNode.stepDown_active listens.active options.term stored
    rw [if_pos steps]
    simp only [after, if_true]
    exact ⟨rfl, max_eq_right term, rfl⟩
  · rw [if_neg steps]
    simp only [not_or, not_not] at steps
    have current : node.currentTerm = options.term := by omega
    have known := (listens.leader current steps.2.1).resolve_left steps.2.2
    simp only [if_neg steps.2.2]
    exact ⟨known, current, steps.2.1⟩

variable [DecidableEq P]

theorem handleLeaderRequest_listens {node : ElectionNode P} (listens : Listens options node)
    (renews stored : Bool) :
    (node.handleLeaderRequest options.term options.serverId renews stored).leaderId =
        some options.serverId ∧
      (node.handleLeaderRequest options.term options.serverId renews stored).currentTerm =
        options.term ∧
      Listens options (node.handleLeaderRequest options.term options.serverId renews stored) := by
  obtain ⟨leaderId, term, state⟩ := checkStepDown_listens listens stored
  unfold ElectionNode.handleLeaderRequest
  rw [if_neg (not_not.mpr listens.active), if_neg (not_lt.mpr listens.term)]
  simp only
  rw [if_neg (not_not.mpr leaderId)]
  have active : (node.checkStepDown options.term options.serverId stored).state.isActive = true := by
    rw [state]
    rfl
  cases renews with
  | false => exact ⟨leaderId, term, active, term.le, fun _ _ => Or.inr leaderId⟩
  | true => exact ⟨leaderId, term, active, term.le, fun _ _ => Or.inr leaderId⟩

theorem handle_mismatch {follower : Follower P D C} {request : AppendEntriesRequest P D}
    (listens : Listens options follower.election) (serverId : request.serverId = options.serverId)
    (term : request.term = options.term) (noEntries : request.entries = [])
    (differs : follower.logManager.getTerm request.prevLogIndex ≠ request.prevLogTerm)
    (context : C) (stored sees : Bool) :
    ∃ election, Listens options election ∧
      follower.handleAppendEntriesRequest request context false false stored sees =
        some ({ follower with election := election }, .answered
          { success := false, term := options.term,
            lastLogIndex := follower.logManager.lastLogIndex }) := by
  obtain ⟨leaderId, current, after⟩ := handleLeaderRequest_listens listens true stored
  refine ⟨_, after, ?_⟩
  have notStale : ¬ request.term < follower.election.currentTerm := by
    rw [term]
    exact not_lt.mpr listens.term
  unfold Follower.handleAppendEntriesRequest
  simp only [serverId, noEntries, if_neg (not_not.mpr listens.active), if_neg notStale]
  rw [term]
  simp [leaderId, current, differs]

theorem handle_match {follower : Follower P D C} {request : AppendEntriesRequest P D}
    (listens : Listens options follower.election) (serverId : request.serverId = options.serverId)
    (term : request.term = options.term) (noEntries : request.entries = [])
    (known : follower.logManager.getTerm request.prevLogIndex = request.prevLogTerm)
    (context : C) (stored sees : Bool) :
    ∃ after response committedIndex,
      follower.handleAppendEntriesRequest request context false false stored sees =
        some (after, .heartbeat response committedIndex) ∧
      response.success = true ∧ response.term = options.term := by
  obtain ⟨leaderId, current, after⟩ := handleLeaderRequest_listens listens true stored
  have notStale : ¬ request.term < follower.election.currentTerm := by
    rw [term]
    exact not_lt.mpr listens.term
  unfold Follower.handleAppendEntriesRequest
  simp only [serverId, noEntries, if_neg (not_not.mpr listens.active), if_neg notStale, known]
  rw [term]
  simp [leaderId, current]

/-- The follower rejects the last request, and the answer comes back. -/
def reject (options : ReplicatorOptions P D) (round : ProbeRound P D C) (probing : Probing P D C) :
    Option (Probing P D C) :=
  match probing.replicator.sent.getLast? with
  | none => none
  | some request =>
      match probing.follower.handleAppendEntriesRequest request round.context false false
        round.stored round.sees with
      | some (follower, .answered response) =>
          (probing.replicator.step options (.onRpcReturned round.around
            (probing.replicator.sent.length - 1) (.returned response))).map
              (fun replicator => { replicator := replicator, follower := follower })
      | _ => none

def probe (options : ReplicatorOptions P D) (rounds : Nat → ProbeRound P D C)
    (start : Probing P D C) : Nat → Option (Probing P D C)
  | 0 =>
      (Replicator.sendEmptyEntries options (rounds 0).around (rounds 0).around.attempts
        start.replicator).map (fun replicator => { start with replicator := replicator })
  | count + 1 => (probe options rounds start count).bind (reject options (rounds (count + 1)))

/-- The follower answers the last request with a success, in the term of the leader. -/
def Accepted (options : ReplicatorOptions P D) (probing : Probing P D C) : Prop :=
  ∃ request, probing.replicator.sent.getLast? = some request ∧
    ∀ (context : C) (stored sees : Bool), ∃ after response committedIndex,
      probing.follower.handleAppendEntriesRequest request context false false stored sees =
        some (after, .heartbeat response committedIndex) ∧
      response.success = true ∧ response.term = options.term

theorem Underway.reject (underway : Underway options leader log probing)
    (hasTerms : HasTerms leader) (reads : Reads leader round.around)
    {request : AppendEntriesRequest P D}
    (probed : Probed options leader probing.replicator request)
    (differs : ¬ Matched leader probing) :
    ∃ after, probing.reject options round = some after ∧ Underway options leader log after ∧
      after.replicator.nextIndex < probing.replicator.nextIndex := by
  have prevLogIndex := probed.prevLogIndex
  have isPrev : probing.replicator.nextIndex - 1 = request.prevLogIndex := by omega
  have mismatch : probing.follower.logManager.getTerm request.prevLogIndex ≠
      request.prevLogTerm := by
    intro same
    apply differs
    constructor
    · rw [isPrev, ← probed.prevLogTerm]
      exact probed.known.imp_left (fun first => by omega)
    · rw [isPrev, ← probed.prevLogTerm, same]
  have later : 1 < probing.replicator.nextIndex := by
    by_contra first
    have isFirst : request.prevLogIndex = 0 := by omega
    apply mismatch
    rw [probed.prevLogTerm, isFirst]
    rfl
  obtain ⟨election, listens, handled⟩ := handle_mismatch underway.listens probed.serverId
    probed.term probed.noEntries mismatch round.context round.stored round.sees
  have isRequest : probing.replicator.sent[probing.replicator.sent.length - 1]? =
      some request := by
    rw [← List.getLast?_eq_getElem?]
    exact probed.last
  have ready := underway.ready probed.noSize later probing.follower.logManager.lastLogIndex
  have back := indexAfterMismatch_back probing.follower.logManager.lastLogIndex later
  obtain ⟨after, sent, nextIndex, alive, outcome⟩ :=
    sendEmptyEntries_outcome options hasTerms ready reads
  have returned : probing.replicator.step options (.onRpcReturned round.around
      (probing.replicator.sent.length - 1) (.returned
        { success := false, term := options.term,
          lastLogIndex := probing.follower.logManager.lastLogIndex })) = some after := by
    unfold Replicator.step
    rw [underway.alive]
    simp only [Bool.false_eq_true, if_false]
    unfold Replicator.onRpcReturned
    rw [isRequest]
    simp only
    rw [if_neg (by
      change ¬ probing.replicator.nextIndex - probing.replicator.flyingAppendEntriesSize = 0
      rw [probed.noSize]
      omega), if_neg (by simp [probed.isValidRpc])]
    simpa using sent
  have same : probing.replicator.resetNextIndex.nextIndex = probing.replicator.nextIndex := by
    change probing.replicator.nextIndex - probing.replicator.flyingAppendEntriesSize = _
    rw [probed.noSize, Nat.sub_zero]
  have isNext : after.nextIndex = Replicator.indexAfterMismatch
      probing.follower.logManager.lastLogIndex probing.replicator.nextIndex := by
    rw [nextIndex, ← same]
  refine ⟨{ replicator := after, follower := { probing.follower with election := election } },
    ?_, ?_, ?_⟩
  · unfold Probing.reject
    rw [probed.last]
    simp only [handled, returned, Option.map_some]
  · constructor
    · exact alive
    · change 1 ≤ after.nextIndex
      omega
    · have bounded := underway.bounded
      change after.nextIndex ≤ _
      omega
    · exact underway.log
    · exact listens
    · exact outcome
  · change after.nextIndex < _
    omega

theorem Underway.accepted (underway : Underway options leader log probing)
    {request : AppendEntriesRequest P D}
    (probed : Probed options leader probing.replicator request)
    (matched : Matched leader probing) : Accepted options probing := by
  have prevLogIndex := probed.prevLogIndex
  have isPrev : probing.replicator.nextIndex - 1 = request.prevLogIndex := by omega
  have known : probing.follower.logManager.getTerm request.prevLogIndex = request.prevLogTerm := by
    rw [probed.prevLogTerm, ← isPrev]
    exact matched.2
  exact ⟨request, probed.last, handle_match underway.listens probed.serverId probed.term
    probed.noEntries known⟩

variable {rounds : Nat → ProbeRound P D C} {start : Probing P D C}

def GoesBack (options : ReplicatorOptions P D) (rounds : Nat → ProbeRound P D C)
    (start : Probing P D C) (count : Nat) : Prop :=
  ∃ before after, probe options rounds start count = some before ∧
    probe options rounds start (count + 1) = some after ∧
    1 ≤ after.replicator.nextIndex ∧ after.replicator.nextIndex < before.replicator.nextIndex

theorem Underway.converges (hasTerms : HasTerms leader)
    (reads : ∀ count, Reads leader (rounds count).around) (bound : Nat) :
    ∀ (count : Nat) (probing : Probing P D C), probe options rounds start count = some probing →
      Underway options leader log probing → probing.replicator.nextIndex ≤ bound →
      ∃ total last, probe options rounds start total = some last ∧
        Underway options leader log last ∧
        (Matched leader last ∧ Accepted options last ∨ Installing leader last.replicator) ∧
        total + last.replicator.nextIndex ≤ count + probing.replicator.nextIndex ∧
        ∀ later, count ≤ later → later < total → GoesBack options rounds start later := by
  induction bound with
  | zero =>
      intro count probing _ underway small
      have positive := underway.positive
      omega
  | succ bound ih =>
      intro count probing isProbing underway small
      rcases underway.outcome with ⟨request, probed⟩ | installing
      · by_cases matched : Matched leader probing
        · have accepted := underway.accepted probed matched
          exact ⟨count, probing, isProbing, underway, Or.inl ⟨matched, accepted⟩, le_refl _,
            by omega⟩
        obtain ⟨after, rejected, still, back⟩ :=
          underway.reject hasTerms (reads (count + 1)) probed matched
        have isAfter : probe options rounds start (count + 1) = some after := by
          unfold probe
          rw [isProbing]
          exact rejected
        obtain ⟨total, last, isLast, ended, outcome, measure, goesBack⟩ :=
          ih (count + 1) after isAfter still (by omega)
        refine ⟨total, last, isLast, ended, outcome, by omega, ?_⟩
        intro later above below
        by_cases first : later = count
        · subst first
          exact ⟨probing, after, isProbing, isAfter, still.positive, back⟩
        · exact goesBack later (by omega) below
      · exact ⟨count, probing, isProbing, underway, Or.inr installing, le_refl _, by omega⟩

/-- After at most as many rejects as there are indexes before the first probe, the search
ends at an entry that matches or below the first index of the leader. -/
theorem probe_converges (hasTerms : HasTerms leader)
    (reads : ∀ count, Reads leader (rounds count).around)
    (ready : Ready leader start.replicator) (listens : Listens options start.follower.election) :
    ∃ total last, probe options rounds start total = some last ∧
      last.follower.logManager = start.follower.logManager ∧
      (Matched leader last ∧ Accepted options last ∨ Installing leader last.replicator) ∧
      1 ≤ last.replicator.nextIndex ∧
      total + last.replicator.nextIndex ≤ start.replicator.nextIndex ∧
      ∀ count < total, GoesBack options rounds start count := by
  obtain ⟨first, sent, nextIndex, alive, outcome⟩ :=
    sendEmptyEntries_outcome options hasTerms ready (reads 0)
  have isFirst : probe options rounds start 0 = some { start with replicator := first } := by
    unfold probe
    rw [sent]
    rfl
  have underway : Underway options leader start.follower.logManager
      { start with replicator := first } := by
    constructor
    · exact alive
    · exact nextIndex ▸ ready.positive
    · exact nextIndex ▸ ready.bounded
    · rfl
    · exact listens
    · exact outcome
  obtain ⟨total, last, isLast, ended, result, measure, goesBack⟩ :=
    underway.converges hasTerms reads first.nextIndex 0 _ isFirst (le_refl _)
  refine ⟨total, last, isLast, ended.log, result, ended.positive, ?_, ?_⟩
  · change total + last.replicator.nextIndex ≤ 0 + first.nextIndex at measure
    omega
  · exact fun count below => goesBack count (Nat.zero_le _) below

def logOf (terms : List Nat) : LogManager Nat Nat Nat :=
  LogManager.init
    { first := 1
      entries := terms.mapIdx (fun position term =>
        { type := .data, id := { index := position + 1, term := term }, data := 0 }) }
    .init (fun _ => 1)

def divergedOptions : ReplicatorOptions Nat Nat := { serverId := 1, term := 3, noData := 0 }

/-- The second entry of the leader is not the follower's, and the follower has more of them. -/
def diverged : Probing Nat Nat Nat :=
  { replicator := { nextIndex := 4 }
    follower := { election := .startedNode [1, 2, 3], logManager := logOf [1, 2, 2, 2] } }

theorem probe_converges_diverged :
    ∃ total last,
      probe divergedOptions (fun _ => { around := { logManager := logOf [1, 1, 3] }, context := 0 })
        diverged total = some last ∧
      last.follower.logManager = diverged.follower.logManager ∧
      (Matched (logOf [1, 1, 3]) last ∧ Accepted divergedOptions last ∨
        Installing (logOf [1, 1, 3]) last.replicator) ∧
      1 ≤ last.replicator.nextIndex ∧
      total + last.replicator.nextIndex ≤ diverged.replicator.nextIndex ∧
      ∀ count < total,
        GoesBack divergedOptions
          (fun _ => { around := { logManager := logOf [1, 1, 3] }, context := 0 }) diverged count := by
  refine probe_converges ?_ (fun _ => ⟨rfl, {}, by decide, rfl⟩)
    ⟨rfl, rfl, rfl, by decide, by decide⟩ ⟨rfl, by decide, fun _ _ => Or.inl rfl⟩
  intro index lower upper
  have isLast : (logOf [1, 1, 3]).lastLogIndex = 3 := rfl
  have isFirst : (logOf [1, 1, 3]).firstLogIndex = 1 := rfl
  have inside : index = 1 ∨ index = 2 ∨ index = 3 := by omega
  rcases inside with rfl | rfl | rfl
  · decide
  · decide
  · decide

/-- Two rejects, and the probe behind the first entry is accepted. -/
example :
    (List.range 3).map (fun count =>
      (probe divergedOptions (fun _ => { around := { logManager := logOf [1, 1, 3] }, context := 0 })
        diverged count).map (fun probing => probing.replicator.nextIndex)) =
      [some 4, some 3, some 2] := by
  decide

end Probing

end QuorumKit
