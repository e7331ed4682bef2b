/-
The install-snapshot protocol: at most one thread downloads or saves, and every RPC is
answered exactly once.

At any time the closure of an RPC is at one place: with the RPC before its registration,
in the object of the running download, in the hands of a thread that is about to run it,
or among those that have been run.
-/

import Mathlib.Tactic.Set
import QuorumKit.Library.ThreadPool
import QuorumKit.Library.TransitionSystem
import QuorumKit.Snapshot.InstallSessions

namespace QuorumKit

variable {P : Type}

namespace InstallSessions

/-! ### What threads hold -/

def stepTickets : TailStep P → List Nat
  | .reply ds _ => [ds.ticket]
  | _ => []

def stepJobs : TailStep P → Nat
  | .signal => 1
  | _ => 0

def tailTickets (tail : List (TailStep P)) : List Nat := tail.flatMap stepTickets

def tailJobs (tail : List (TailStep P)) : Nat := (tail.map stepJobs).sum

def places (executor : InstallSessions P) (ticket : Nat) : Nat :=
  (executor.answered.flatMap (fun answer => [answer.1])).count ticket +
    (executor.arrived.flatMap (fun ds => [ds.ticket])).count ticket +
    (executor.downloadingSnapshot.toList.flatMap
      (fun downloading => [downloading.content.ticket])).count ticket +
    (executor.tails.flatMap tailTickets).count ticket

/-- The jobs that threads outside of all sections have not signalled yet. -/
def pendingSignals (executor : InstallSessions P) : Nat := (executor.tails.map tailJobs).sum

def Phase (executor : InstallSessions P) : InstallSession P → Prop
  | .joining address _ =>
      executor.downloadingSnapshot.map Downloading.address = some address ∧
        executor.curCopier.isSome = true ∧ executor.loadingSnapshot = false
  | .joined address _ =>
      executor.downloadingSnapshot.map Downloading.address = some address ∧
        (executor.curCopier.bind CurCopier.finished).isSome = true ∧
        executor.loadingSnapshot = false
  | .submitting =>
      executor.downloadingSnapshot.isSome = true ∧ executor.curCopier = none ∧
        executor.loadingSnapshot = true
  | .loading _ =>
      executor.downloadingSnapshot.isSome = true ∧ executor.curCopier = none ∧
        executor.loadingSnapshot = true
  | .finishing address _ =>
      address.isSome = true ∧ executor.downloadingSnapshot.isSome = true ∧
        executor.curCopier = none ∧ executor.loadingSnapshot = true

def Installing (executor : InstallSessions P) : Prop :=
  (executor.sessions = [] ∧ executor.downloadingSnapshot = none ∧ executor.curCopier = none ∧
      executor.loadingSnapshot = false) ∨
    ∃ session, executor.sessions = [session] ∧ Phase executor session

def Saving (executor : InstallSessions P) : Prop :=
  (executor.saves = [] ∧ executor.savingSnapshot = false) ∨
    (∃ save, executor.saves = [save]) ∧ executor.savingSnapshot = true ∧ executor.sessions = []

structure Controlled (executor : InstallSessions P) : Prop where
  installing : Installing executor
  saving : Saving executor
  jobs : executor.runningJobs =
    executor.sessions.length + executor.saves.length + executor.pendingSignals
  queue : executor.queueStopped = true → executor.stopped = true
  checks : executor.checksHold = true

def Placed (executor : InstallSessions P) : Prop :=
  ∀ ticket, executor.places ticket = if ticket < executor.calls then 1 else 0

variable {executor after : InstallSessions P}

theorem Phase.downloading {session : InstallSession P} (phase : Phase executor session) :
    executor.downloadingSnapshot.isSome = true := by
  cases session with
  | joining address snapshot =>
      obtain ⟨downloading, found, _⟩ := Option.map_eq_some_iff.mp phase.1
      rw [found]
      rfl
  | joined address snapshot =>
      obtain ⟨downloading, found, _⟩ := Option.map_eq_some_iff.mp phase.1
      rw [found]
      rfl
  | submitting => exact phase.1
  | loading refused => exact phase.1
  | finishing address status => exact phase.2.1

theorem Phase.copier {session : InstallSession P} (phase : Phase executor session)
    (notLoading : executor.loadingSnapshot = false) : executor.curCopier.isSome = true := by
  cases session with
  | joining address snapshot => exact phase.2.1
  | joined address snapshot =>
      cases found : executor.curCopier with
      | none =>
          have finished := phase.2.1
          rw [found] at finished
          contradiction
      | some copier => rfl
  | submitting => exact absurd phase.2.2 (by rw [notLoading]; decide)
  | loading refused => exact absurd phase.2.2 (by rw [notLoading]; decide)
  | finishing address status => exact absurd phase.2.2.2 (by rw [notLoading]; decide)

theorem Installing.session (installing : Installing executor)
    (downloading : executor.downloadingSnapshot.isSome = true) :
    ∃ session, executor.sessions = [session] ∧ Phase executor session := by
  rcases installing with ⟨_, none, _⟩ | running
  · rw [none] at downloading
    contradiction
  · exact running

theorem Controlled.notSaving (controlled : Controlled executor)
    (downloading : executor.downloadingSnapshot.isSome = true) :
    executor.saves = [] ∧ executor.savingSnapshot = false := by
  obtain ⟨session, sessions, _⟩ := controlled.installing.session downloading
  rcases controlled.saving with idle | ⟨_, _, none⟩
  · exact idle
  · rw [sessions] at none
    contradiction

theorem Phase.frame {session : InstallSession P} (phase : Phase executor session)
    (downloading : after.downloadingSnapshot.map Downloading.address =
      executor.downloadingSnapshot.map Downloading.address)
    (copier : after.curCopier.isSome = executor.curCopier.isSome ∧
      (after.curCopier.bind CurCopier.finished).isSome =
        (executor.curCopier.bind CurCopier.finished).isSome)
    (loading : after.loadingSnapshot = executor.loadingSnapshot) : Phase after session := by
  have same : after.downloadingSnapshot.isSome = executor.downloadingSnapshot.isSome := by
    rw [← Option.isSome_map (f := Downloading.address), downloading, Option.isSome_map]
  have none (empty : executor.curCopier = none) : after.curCopier = none := by
    rw [← Option.not_isSome_iff_eq_none, copier.1, empty]
    decide
  cases session with
  | joining address snapshot =>
      exact ⟨downloading.trans phase.1, copier.1.trans phase.2.1, loading.trans phase.2.2⟩
  | joined address snapshot =>
      exact ⟨downloading.trans phase.1, copier.2.trans phase.2.1, loading.trans phase.2.2⟩
  | submitting => exact ⟨same.trans phase.1, none phase.2.1, loading.trans phase.2.2⟩
  | loading refused => exact ⟨same.trans phase.1, none phase.2.1, loading.trans phase.2.2⟩
  | finishing address status =>
      exact ⟨phase.1, same.trans phase.2.1, none phase.2.2.1, loading.trans phase.2.2.2⟩

theorem Controlled.frame (controlled : Controlled executor)
    (sessions : after.sessions = executor.sessions) (saves : after.saves = executor.saves)
    (downloading : after.downloadingSnapshot.map Downloading.address =
      executor.downloadingSnapshot.map Downloading.address)
    (copier : after.curCopier = executor.curCopier)
    (loading : after.loadingSnapshot = executor.loadingSnapshot)
    (saving : after.savingSnapshot = executor.savingSnapshot)
    (jobs : after.runningJobs - after.pendingSignals =
      executor.runningJobs - executor.pendingSignals)
    (queue : after.queueStopped = true → after.stopped = true)
    (checks : after.checksHold = executor.checksHold) : Controlled after := by
  constructor
  · unfold Installing
    rw [sessions]
    rcases controlled.installing with ⟨idle, none, noCopier, notLoading⟩ | ⟨session, one, phase⟩
    · rw [none, Option.map_none, Option.map_eq_none_iff] at downloading
      exact Or.inl ⟨idle, downloading, copier.trans noCopier, loading.trans notLoading⟩
    · refine Or.inr ⟨session, one, phase.frame downloading ?_ loading⟩
      rw [copier]
      exact ⟨rfl, rfl⟩
  · unfold Saving
    rw [sessions, saves, saving]
    exact controlled.saving
  · have before := controlled.jobs
    rw [sessions, saves]
    omega
  · exact queue
  · rw [checks]
    exact controlled.checks

theorem Controlled.leave (controlled : Controlled executor) {tail : List (TailStep P)}
    (noSignal : tailJobs tail = 0) : Controlled (executor.leave tail) := by
  refine controlled.frame rfl rfl rfl rfl rfl rfl ?_ controlled.queue rfl
  unfold pendingSignals InstallSessions.leave
  simp only [List.map_append, List.sum_append, List.map_cons, List.map_nil, List.sum_cons,
    List.sum_nil, noSignal]
  omega

theorem pendingSignals_leave (executor : InstallSessions P) (tail : List (TailStep P)) :
    (executor.leave tail).pendingSignals = executor.pendingSignals + tailJobs tail := by
  unfold pendingSignals InstallSessions.leave
  simp only [List.map_append, List.sum_append, List.map_cons, List.map_nil, List.sum_cons,
    List.sum_nil, Nat.add_zero]

theorem places_leave (executor : InstallSessions P) (tail : List (TailStep P)) (ticket : Nat) :
    (executor.leave tail).places ticket =
      executor.places ticket + (tailTickets tail).count ticket := by
  unfold places InstallSessions.leave
  simp only [List.flatMap_append, List.flatMap_cons, List.flatMap_nil, List.append_nil,
    List.count_append]
  omega

theorem Controlled.check {holds : Bool} (controlled : Controlled executor)
    (isTrue : holds = true) : Controlled (executor.check holds) := by
  refine controlled.frame rfl rfl rfl rfl rfl rfl rfl controlled.queue ?_
  unfold InstallSessions.check
  rw [isTrue, Bool.and_true]

theorem Controlled.cancelCopier (controlled : Controlled executor) :
    Controlled executor.cancelCopier := by
  constructor
  · rcases controlled.installing with ⟨idle, none, noCopier, notLoading⟩ | ⟨session, one, phase⟩
    · refine Or.inl ⟨idle, none, ?_, notLoading⟩
      unfold InstallSessions.cancelCopier
      rw [noCopier]
      rfl
    · refine Or.inr ⟨session, one, phase.frame rfl ?_ rfl⟩
      unfold InstallSessions.cancelCopier
      cases executor.curCopier with
      | none => exact ⟨rfl, rfl⟩
      | some copier => exact ⟨rfl, rfl⟩
  · exact controlled.saving
  · exact controlled.jobs
  · exact controlled.queue
  · exact controlled.checks

/-! ### Requests -/

theorem Controlled.installSnapshot (controlled : Controlled executor)
    (request : InstallSnapshotRequest P) (throttled : Bool) :
    Controlled (executor.installSnapshot request throttled) := by
  have counted : Controlled { executor with calls := executor.calls + 1 } :=
    controlled.frame rfl rfl rfl rfl rfl rfl rfl controlled.queue rfl
  unfold InstallSessions.installSnapshot
  simp only
  split
  · exact counted.leave rfl
  · exact counted.frame rfl rfl rfl rfl rfl rfl rfl controlled.queue rfl

theorem places_installSnapshot (request : InstallSnapshotRequest P) (throttled : Bool)
    (ticket : Nat) : (executor.installSnapshot request throttled).places ticket =
      executor.places ticket + [executor.calls].count ticket := by
  unfold InstallSessions.installSnapshot
  simp only
  split
  · unfold refuse
    rw [places_leave]
    rfl
  · unfold places
    simp only [List.flatMap_append, List.flatMap_cons, List.flatMap_nil, List.append_nil,
      List.count_append]
    omega

theorem Controlled.idle (controlled : Controlled executor)
    (none : executor.downloadingSnapshot = none) :
    executor.sessions = [] ∧ executor.curCopier = Option.none ∧
      executor.loadingSnapshot = false := by
  rcases controlled.installing with ⟨sessions, _, copier, loading⟩ | ⟨session, _, phase⟩
  · exact ⟨sessions, copier, loading⟩
  · have running := phase.downloading
    rw [none] at running
    contradiction

theorem Controlled.startDownloading (controlled : Controlled executor)
    (none : executor.downloadingSnapshot = none) (notSaving : executor.savingSnapshot = false)
    (ds : DownloadingSnapshot P) (copierStarts : Bool) :
    Controlled (executor.startDownloading ds copierStarts) := by
  obtain ⟨sessions, copier, loading⟩ := controlled.idle none
  have checked := controlled.check (show executor.curCopier.isNone = true by rw [copier]; rfl)
  unfold InstallSessions.startDownloading
  simp only
  split
  · have noSave : executor.saves = [] := by
      rcases controlled.saving with ⟨idle, _⟩ | ⟨_, saving, _⟩
      · exact idle
      · rw [notSaving] at saving
        contradiction
    have jobs := controlled.jobs
    constructor
    · refine Or.inr ⟨.joining ds.ticket ds.request.snapshotMeta, ?_, rfl, rfl, loading⟩
      change executor.sessions ++ _ = _
      rw [sessions]
      rfl
    · exact Or.inl ⟨noSave, notSaving⟩
    · change executor.runningJobs + 1 = ((executor.sessions ++ [_]).length : Int) +
        executor.saves.length + executor.pendingSignals
      rw [List.length_append, List.length_singleton]
      push_cast
      omega
    · exact controlled.queue
    · exact checked.checks
  · refine Controlled.leave ?_ rfl
    exact checked.frame rfl rfl rfl copier.symm rfl rfl rfl controlled.queue rfl

theorem Controlled.meetDownloading (controlled : Controlled executor) {former : Downloading P}
    (found : executor.downloadingSnapshot = some former) (ds : DownloadingSnapshot P) :
    Controlled (executor.meetDownloading former ds) := by
  unfold InstallSessions.meetDownloading
  simp only
  split_ifs with retry older loading
  · refine Controlled.leave ?_ rfl
    refine controlled.frame rfl rfl ?_ rfl rfl rfl rfl controlled.queue rfl
    rw [found]
    rfl
  · exact controlled.leave rfl
  · exact controlled.leave rfl
  · obtain ⟨session, _, phase⟩ := controlled.installing.session (by rw [found]; rfl)
    have hasCopier := phase.copier (by simpa using loading)
    exact ((controlled.check hasCopier).cancelCopier).leave rfl

theorem Controlled.register (controlled : Controlled executor) (ds : DownloadingSnapshot P)
    (copierStarts : Bool) :
    Controlled (executor.registerDownloadingSnapshot ds copierStarts) := by
  unfold registerDownloadingSnapshot
  split_ifs with isStopped otherTerm notNewer isSaving
  · exact controlled.leave rfl
  · exact controlled.leave rfl
  · exact controlled.leave rfl
  · exact controlled.leave rfl
  · cases found : executor.downloadingSnapshot with
    | none => exact controlled.startDownloading found (by simpa using isSaving) ds copierStarts
    | some former => exact controlled.meetDownloading found ds

theorem calls_register (ds : DownloadingSnapshot P) (copierStarts : Bool) :
    (executor.registerDownloadingSnapshot ds copierStarts).calls = executor.calls := by
  unfold registerDownloadingSnapshot
  split_ifs
  · rfl
  · rfl
  · rfl
  · rfl
  · split
    · cases copierStarts <;> rfl
    · unfold meetDownloading
      simp only
      split_ifs <;> rfl

theorem places_refuse (ds : DownloadingSnapshot P) (response : InstallSnapshotResponse)
    (ticket : Nat) : (executor.refuse ds response).places ticket =
      executor.places ticket + [ds.ticket].count ticket := by
  unfold refuse
  rw [places_leave]
  rfl

theorem places_startDownloading (none : executor.downloadingSnapshot = none)
    (ds : DownloadingSnapshot P) (copierStarts : Bool) (ticket : Nat) :
    (executor.startDownloading ds copierStarts).places ticket =
      executor.places ticket + [ds.ticket].count ticket := by
  unfold startDownloading
  simp only
  split
  · unfold places check
    rw [none]
    simp only [Option.toList_some, Option.toList_none, List.flatMap_cons, List.flatMap_nil,
      List.append_nil, List.count_nil]
    omega
  · exact places_refuse _ _ _

theorem places_meetDownloading {former : Downloading P}
    (found : executor.downloadingSnapshot = some former) (ds : DownloadingSnapshot P)
    (ticket : Nat) : (executor.meetDownloading former ds).places ticket =
      executor.places ticket + [ds.ticket].count ticket := by
  unfold meetDownloading
  simp only
  split_ifs
  · rw [places_refuse]
    unfold places
    rw [found]
    simp only [Option.toList_some, List.flatMap_cons, List.flatMap_nil, List.append_nil]
    omega
  · exact places_refuse _ _ _
  · exact places_refuse _ _ _
  · exact places_refuse _ _ _

theorem places_register (ds : DownloadingSnapshot P) (copierStarts : Bool) (ticket : Nat) :
    (executor.registerDownloadingSnapshot ds copierStarts).places ticket =
      executor.places ticket + [ds.ticket].count ticket := by
  unfold registerDownloadingSnapshot
  split_ifs
  · exact places_refuse _ _ _
  · exact places_refuse _ _ _
  · exact places_refuse _ _ _
  · exact places_refuse _ _ _
  · cases found : executor.downloadingSnapshot with
    | none => exact places_startDownloading found _ _ _
    | some former => exact places_meetDownloading found _ _

/-! ### Sessions -/

structure Keeps (executor after : InstallSessions P) : Prop where
  controlled : Controlled after
  places : ∀ ticket, after.places ticket = executor.places ticket
  calls : after.calls = executor.calls

def Working (executor : InstallSessions P) : Prop :=
  executor.sessions = [] ∧ executor.saves = [] ∧
    executor.runningJobs = 1 + executor.pendingSignals ∧
    (executor.queueStopped = true → executor.stopped = true) ∧ executor.checksHold = true

theorem Working.check {holds : Bool} (working : Working executor) (isTrue : holds = true) :
    Working (executor.check holds) := by
  obtain ⟨sessions, saves, jobs, queue, checks⟩ := working
  refine ⟨sessions, saves, jobs, queue, ?_⟩
  unfold InstallSessions.check
  rw [checks, isTrue]
  rfl

theorem Working.goesOn {session : InstallSession P} (working : Working executor)
    (notSaving : executor.savingSnapshot = false) (phase : Phase executor session) :
    Controlled { executor with sessions := executor.sessions ++ [session] } := by
  obtain ⟨sessions, saves, jobs, queue, checks⟩ := working
  have one : executor.sessions ++ [session] = [session] := by
    rw [sessions]
    rfl
  constructor
  · exact Or.inr ⟨session, one, phase.frame rfl ⟨rfl, rfl⟩ rfl⟩
  · exact Or.inl ⟨saves, notSaving⟩
  · change executor.runningJobs = ((executor.sessions ++ [session]).length : Int) +
      executor.saves.length + executor.pendingSignals
    rw [one, saves]
    exact jobs
  · exact queue
  · exact checks

theorem Working.ends {tail : List (TailStep P)} (working : Working executor)
    (notSaving : executor.savingSnapshot = false) (none : executor.downloadingSnapshot = none)
    (copier : executor.curCopier = Option.none) (loading : executor.loadingSnapshot = false)
    (signals : tailJobs tail = 1) : Controlled (executor.leave tail) := by
  obtain ⟨sessions, saves, jobs, queue, checks⟩ := working
  constructor
  · exact Or.inl ⟨sessions, none, copier, loading⟩
  · exact Or.inl ⟨saves, notSaving⟩
  · rw [pendingSignals_leave, signals]
    change executor.runningJobs = (executor.sessions.length : Int) + executor.saves.length + _
    rw [sessions, saves, jobs]
    simp only [List.length_nil]
    push_cast
    omega
  · exact queue
  · exact checks

theorem Controlled.only (controlled : Controlled executor) {position : Nat}
    {session : InstallSession P} (found : executor.sessions[position]? = some session) :
    Working { executor with sessions := executor.sessions.eraseIdx position } ∧
      Phase executor session ∧ executor.savingSnapshot = false := by
  rcases controlled.installing with ⟨none, _⟩ | ⟨other, one, phase⟩
  · rw [none] at found
    contradiction
  · have jobs := controlled.jobs
    obtain ⟨noSave, notSaving⟩ := controlled.notSaving phase.downloading
    rw [one] at found
    cases position with
    | zero =>
        obtain rfl := Option.some.inj found
        rw [one, noSave] at jobs
        refine ⟨⟨?_, noSave, ?_, controlled.queue, controlled.checks⟩, phase, notSaving⟩
        · change executor.sessions.eraseIdx 0 = []
          rw [one]
          rfl
        · change executor.runningJobs = 1 + executor.pendingSignals
          simpa using jobs
    | succ position => simp at found

theorem places_over {downloading : Downloading P}
    (found : executor.downloadingSnapshot = some downloading) (ticket : Nat) :
    ({ executor with downloadingSnapshot := none } : InstallSessions P).places ticket +
      [downloading.content.ticket].count ticket = executor.places ticket := by
  unfold places
  rw [found]
  simp only [Option.toList_some, Option.toList_none, List.flatMap_cons, List.flatMap_nil,
    List.append_nil, List.count_nil]
  omega

theorem Working.finishCopy {downloading : Downloading P} (working : Working executor)
    (notSaving : executor.savingSnapshot = false)
    (found : executor.downloadingSnapshot = some downloading)
    (notLoading : executor.loadingSnapshot = false) (snapshot : SnapshotMeta P) (code : Int)
    (hasReader : Bool) :
    Keeps executor (executor.finishCopy downloading snapshot code hasReader) := by
  unfold InstallSessions.finishCopy
  simp only
  by_cases failed : code ≠ 0
  · rw [if_pos failed]
    split
    · refine ⟨Working.ends working notSaving rfl rfl notLoading rfl, ?_, rfl⟩
      intro ticket
      rw [places_leave]
      exact places_over found ticket
    · refine ⟨Working.ends working notSaving rfl rfl notLoading rfl, ?_, rfl⟩
      intro ticket
      rw [places_leave]
      exact places_over found ticket
  · rw [if_neg failed]
    split
    · refine ⟨Working.ends working notSaving rfl rfl notLoading rfl, ?_, rfl⟩
      intro ticket
      rw [places_leave]
      exact places_over found ticket
    · have loads : Working ({ executor with
          curCopier := none, loadingSnapshot := true, loadingSnapshotMeta := some snapshot } :
            InstallSessions P) := working
      exact ⟨loads.goesOn notSaving ⟨by rw [found]; rfl, rfl, rfl⟩, fun _ => rfl, rfl⟩

theorem Working.loadDownloadingSnapshot {address : Nat} {snapshot : SnapshotMeta P}
    (working : Working executor) (notSaving : executor.savingSnapshot = false)
    (phase : Phase executor (.joined address snapshot)) :
    Keeps executor (executor.loadDownloadingSnapshot address snapshot) := by
  have hasCopier := phase.copier phase.2.2
  obtain ⟨isMine, finished, notLoading⟩ := phase
  have checked := (working.check (decide_eq_true isMine)).check hasCopier
  obtain ⟨downloading, found, _⟩ := Option.map_eq_some_iff.mp isMine
  obtain ⟨⟨code, hasReader⟩, result⟩ := Option.isSome_iff_exists.mp finished
  have kept := checked.finishCopy notSaving found notLoading snapshot code hasReader
  have isResult : executor.loadDownloadingSnapshot address snapshot =
      ((executor.check (executor.downloadingSnapshot.map Downloading.address = some address)).check
        executor.curCopier.isSome).finishCopy downloading snapshot code hasReader := by
    unfold InstallSessions.loadDownloadingSnapshot
    simp only [InstallSessions.check, found, result]
  rw [isResult]
  exact ⟨kept.controlled, kept.places, kept.calls⟩

theorem Working.loadDone (refused : Option Int) (working : Working executor)
    (notSaving : executor.savingSnapshot = false) (phase : Phase executor (.loading refused))
    (status : Int) : Keeps executor (executor.loadDone status) := by
  obtain ⟨running, noCopier, loading⟩ := phase
  have checked := working.check loading
  have address : (executor.downloadingSnapshot.map Downloading.address).isSome = true := by
    rw [Option.isSome_map]
    exact running
  unfold InstallSessions.loadDone
  simp only
  split
  · split
    · rename_i snapshot _ _
      have noted : Working ((executor.check executor.loadingSnapshot).setSnapshot snapshot) :=
        checked
      exact ⟨noted.goesOn notSaving ⟨address, running, noCopier, loading⟩, fun _ => rfl, rfl⟩
    · exact ⟨checked.goesOn notSaving ⟨address, running, noCopier, loading⟩, fun _ => rfl, rfl⟩
  · exact ⟨checked.goesOn notSaving ⟨address, running, noCopier, loading⟩, fun _ => rfl, rfl⟩

theorem Working.loadEnd {address : Option Nat} {status : Int} (working : Working executor)
    (notSaving : executor.savingSnapshot = false)
    (phase : Phase executor (.finishing address status)) :
    Keeps executor (executor.loadEnd address status) := by
  obtain ⟨hasAddress, running, noCopier, _⟩ := phase
  obtain ⟨pointer, isPointer⟩ := Option.isSome_iff_exists.mp hasAddress
  obtain ⟨downloading, found⟩ := Option.isSome_iff_exists.mp running
  unfold InstallSessions.loadEnd
  simp only [found, isPointer]
  refine ⟨Working.ends working notSaving rfl noCopier rfl rfl, ?_, rfl⟩
  intro ticket
  rw [places_leave]
  exact places_over found ticket

theorem Controlled.session (controlled : Controlled executor) {position : Nat} {status : Int}
    {session : InstallSession P} (found : executor.sessions[position]? = some session)
    (stepped : ({ executor with sessions := executor.sessions.eraseIdx position } :
      InstallSessions P).sessionStep status session = some after) : Keeps executor after := by
  obtain ⟨working, phase, notSaving⟩ := controlled.only found
  have moved {result : InstallSessions P} (kept : Keeps ({ executor with
      sessions := executor.sessions.eraseIdx position } : InstallSessions P) result) :
      Keeps executor result := ⟨kept.controlled, kept.places, kept.calls⟩
  cases session with
  | joining address snapshot =>
      obtain ⟨isMine, hasCopier, notLoading⟩ := phase
      simp only [sessionStep] at stepped
      split at stepped
      · rename_i copier isCopier
        split at stepped
        · rename_i finished
          obtain rfl := Option.some.inj stepped
          have checked := working.check hasCopier
          refine ⟨checked.goesOn notSaving ⟨isMine, ?_, notLoading⟩, fun _ => rfl, rfl⟩
          have isCopier : executor.curCopier = some copier := isCopier
          change (executor.curCopier.bind CurCopier.finished).isSome = true
          rw [isCopier]
          exact finished
        · contradiction
      · rename_i none
        have none : executor.curCopier = Option.none := none
        rw [none] at hasCopier
        contradiction
  | joined address snapshot =>
      obtain rfl := Option.some.inj stepped
      exact moved (working.loadDownloadingSnapshot notSaving phase)
  | submitting =>
      obtain rfl := Option.some.inj stepped
      exact ⟨working.goesOn notSaving phase, fun _ => rfl, rfl⟩
  | loading refused =>
      obtain rfl := Option.some.inj stepped
      exact moved (working.loadDone refused notSaving phase _)
  | finishing address status =>
      obtain rfl := Option.some.inj stepped
      exact moved (working.loadEnd notSaving phase)

/-! ### Saves -/

theorem Controlled.onlySave (controlled : Controlled executor) {position : Nat}
    {save : SaveSession P} (found : executor.saves[position]? = some save) :
    Working { executor with saves := executor.saves.eraseIdx position } ∧
      executor.savingSnapshot = true ∧ executor.downloadingSnapshot = none ∧
      executor.curCopier = none ∧ executor.loadingSnapshot = false := by
  rcases controlled.saving with ⟨none, _⟩ | ⟨⟨other, one⟩, saving, noSession⟩
  · rw [none] at found
    contradiction
  · have jobs := controlled.jobs
    rw [one] at found
    have idle : executor.downloadingSnapshot = none ∧ executor.curCopier = none ∧
        executor.loadingSnapshot = false := by
      rcases controlled.installing with ⟨_, idle⟩ | ⟨session, isOne, _⟩
      · exact idle
      · rw [noSession] at isOne
        contradiction
    cases position with
    | zero =>
        obtain rfl := Option.some.inj found
        rw [one, noSession] at jobs
        refine ⟨⟨noSession, ?_, ?_, controlled.queue, controlled.checks⟩, saving, idle⟩
        · change executor.saves.eraseIdx 0 = []
          rw [one]
          rfl
        · change executor.runningJobs = 1 + executor.pendingSignals
          simpa using jobs
    | succ position => simp at found

theorem Working.savesOn (working : Working executor) (save : SaveSession P)
    (saving : executor.savingSnapshot = true) (none : executor.downloadingSnapshot = none)
    (copier : executor.curCopier = Option.none) (loading : executor.loadingSnapshot = false) :
    Controlled { executor with saves := executor.saves ++ [save] } := by
  obtain ⟨sessions, saves, jobs, queue, checks⟩ := working
  have one : executor.saves ++ [save] = [save] := by
    rw [saves]
    rfl
  constructor
  · exact Or.inl ⟨sessions, none, copier, loading⟩
  · exact Or.inr ⟨⟨save, one⟩, saving, sessions⟩
  · change executor.runningJobs = (executor.sessions.length : Int) +
      (executor.saves ++ [save]).length + executor.pendingSignals
    rw [one, sessions]
    exact jobs
  · exact queue
  · exact checks

theorem Controlled.save (controlled : Controlled executor) {position : Nat} {status : Int}
    {snapshot : SnapshotMeta P} {writes : Bool} {save : SaveSession P}
    (found : executor.saves[position]? = some save) :
    Keeps executor (({ executor with saves := executor.saves.eraseIdx position } :
      InstallSessions P).saveStep status snapshot writes save) := by
  obtain ⟨working, saving, none, copier, loading⟩ := controlled.onlySave found
  cases save with
  | saving hasDone refused =>
      exact ⟨working.savesOn _ saving none copier loading, fun _ => rfl, rfl⟩
  | closing hasDone status ret snapshot =>
      simp only [saveStep]
      by_cases stored : (if writes = true then ret else EIO) = 0
      · rw [if_pos stored]
        have noted : Working (({ executor with
          saves := executor.saves.eraseIdx position } : InstallSessions P).setSnapshot snapshot) :=
          working
        exact ⟨noted.savesOn _ saving none copier loading, fun _ => rfl, rfl⟩
      · rw [if_neg stored]
        exact ⟨working.savesOn _ saving none copier loading, fun _ => rfl, rfl⟩
  | closed hasDone status ret =>
      have noTickets : ∀ tail : List (TailStep P), tail = .signal ::
          (if hasDone = true then
            [TailStep.saveAnswer (if ret ≠ 0 ∧ status = 0 then ret else status)] else []) →
          tailTickets tail = [] ∧ tailJobs tail = 1 := by
        rintro tail rfl
        cases hasDone <;> exact ⟨rfl, rfl⟩
      obtain ⟨held, signals⟩ := noTickets _ rfl
      simp only [saveStep]
      split
      · refine ⟨Working.ends working rfl none copier loading signals, ?_, rfl⟩
        intro ticket
        rw [places_leave, held]
        rfl
      · refine ⟨Working.ends working rfl none copier loading signals, ?_, rfl⟩
        intro ticket
        rw [places_leave, held]
        rfl

theorem Keeps.leave {tail : List (TailStep P)} (kept : Keeps executor after)
    (noSignal : tailJobs tail = 0) (noTicket : tailTickets tail = []) :
    Keeps executor (after.leave tail) := by
  refine ⟨kept.controlled.leave noSignal, ?_, kept.calls⟩
  intro ticket
  rw [places_leave, noTicket, kept.places]
  rfl

theorem Controlled.keeps (controlled : Controlled executor) : Keeps executor executor :=
  ⟨controlled, fun _ => rfl, rfl⟩

theorem Controlled.answerSave (controlled : Controlled executor) (hasDone : Bool)
    (status : Int) : Keeps executor (executor.answerSave hasDone status) := by
  unfold InstallSessions.answerSave
  split
  · exact controlled.keeps.leave rfl rfl
  · exact controlled.keeps

theorem Controlled.doSnapshot (controlled : Controlled executor) (appliedIndex : Nat)
    (createsWriter hasDone : Bool) :
    Keeps executor (executor.doSnapshot appliedIndex createsWriter hasDone) := by
  have answered (status : Int) := controlled.answerSave hasDone status
  unfold InstallSessions.doSnapshot
  by_cases isStopped : executor.stopped = true
  · rw [if_pos isStopped]
    exact answered _
  rw [if_neg isStopped]
  by_cases running : executor.downloadingSnapshot.isSome = true
  · rw [if_pos running]
    exact answered _
  rw [if_neg running]
  by_cases isSaving : executor.savingSnapshot = true
  · rw [if_pos isSaving]
    exact answered _
  rw [if_neg isSaving]
  split
  · exact answered _
  · split
    · have kept := answered EIO
      refine ⟨?_, kept.places, kept.calls⟩
      exact kept.controlled.frame rfl rfl rfl rfl rfl rfl rfl kept.controlled.queue rfl
    · -- the queue takes the closure, as it is stopped after the executor only
      have goesOn : ¬ executor.queueStopped = true :=
        fun refuses => isStopped (controlled.queue refuses)
      simp only
      rw [if_neg goesOn]
      have none : executor.downloadingSnapshot = none := by simpa using running
      obtain ⟨sessions, copier, loading⟩ := controlled.idle none
      have noSave : executor.saves = [] := by
        rcases controlled.saving with ⟨idle, _⟩ | ⟨_, saving, _⟩
        · exact idle
        · exact absurd saving isSaving
      have jobs := controlled.jobs
      rw [sessions, noSave] at jobs
      have working : Working ({ executor with
          savingSnapshot := true, runningJobs := executor.runningJobs + 1 } :
            InstallSessions P) := by
        refine ⟨sessions, noSave, ?_, controlled.queue, controlled.checks⟩
        change executor.runningJobs + 1 = 1 + executor.pendingSignals
        simp only [List.length_nil] at jobs
        omega
      exact ⟨working.savesOn _ rfl none copier loading, fun _ => rfl, rfl⟩

/-! ### The other steps -/

theorem Controlled.interrupt (controlled : Controlled executor) (newTerm : Nat) :
    Keeps executor (executor.interruptDownloadingSnapshot newTerm) := by
  have noted : Controlled ({ executor with term := newTerm } : InstallSessions P) :=
    controlled.frame rfl rfl rfl rfl rfl rfl rfl controlled.queue rfl
  unfold interruptDownloadingSnapshot
  simp only
  split
  · exact ⟨noted, fun _ => rfl, rfl⟩
  · rename_i running
    split
    · exact ⟨noted, fun _ => rfl, rfl⟩
    · rename_i notLoading
      obtain ⟨session, _, phase⟩ := controlled.installing.session
        (by simpa [Option.isSome_iff_ne_none] using running)
      have hasCopier := phase.copier (by simpa using notLoading)
      exact ⟨(noted.check hasCopier).cancelCopier, fun _ => rfl, rfl⟩

theorem Controlled.copierFinishes (controlled : Controlled executor) {cancelled : Bool}
    (found : executor.curCopier = some { cancelled := cancelled, finished := none })
    (code : Int) (hasReader : Bool) :
    Keeps executor { executor with
      curCopier := some { cancelled := cancelled, finished := some (code, hasReader) } } := by
  refine ⟨?_, fun _ => rfl, rfl⟩
  constructor
  · rcases controlled.installing with ⟨_, _, noCopier, _⟩ | ⟨session, one, phase⟩
    · rw [noCopier] at found
      contradiction
    · refine Or.inr ⟨session, one, ?_⟩
      cases session with
      | joining address snapshot => exact ⟨phase.1, rfl, phase.2.2⟩
      | joined address snapshot => exact ⟨phase.1, rfl, phase.2.2⟩
      | submitting => exact absurd (found.symm.trans phase.2.1) (by simp)
      | loading refused => exact absurd (found.symm.trans phase.2.1) (by simp)
      | finishing address status => exact absurd (found.symm.trans phase.2.2.1) (by simp)
  · exact controlled.saving
  · exact controlled.jobs
  · exact controlled.queue
  · exact controlled.checks

theorem Controlled.destroy (controlled : Controlled executor) (joined : executor.runningJobs ≤ 0) :
    Keeps executor executor.destroy := by
  have jobs := controlled.jobs
  have noSession : executor.sessions = [] := by
    rw [← List.length_eq_zero_iff]
    omega
  have noSave : executor.saves = [] := by
    rw [← List.length_eq_zero_iff]
    omega
  have idle : executor.downloadingSnapshot = none ∧ executor.curCopier = none ∧
      executor.loadingSnapshot = false := by
    rcases controlled.installing with ⟨_, idle⟩ | ⟨session, one, _⟩
    · exact idle
    · rw [noSession] at one
      contradiction
  have notSaving : executor.savingSnapshot = false := by
    rcases controlled.saving with ⟨_, idle⟩ | ⟨⟨save, one⟩, _⟩
    · exact idle
    · rw [noSave] at one
      contradiction
  obtain ⟨none, copier, loading⟩ := idle
  refine ⟨controlled.check ?_, fun _ => rfl, rfl⟩
  rw [none, copier, loading, notSaving]
  rfl

theorem Controlled.registers (controlled : Controlled executor) {position : Nat}
    {ds : DownloadingSnapshot P} (found : executor.arrived[position]? = some ds)
    (copierStarts : Bool) :
    Keeps executor (({ executor with arrived := executor.arrived.eraseIdx position } :
      InstallSessions P).registerDownloadingSnapshot ds copierStarts) := by
  have taken : Controlled ({ executor with
      arrived := executor.arrived.eraseIdx position } : InstallSessions P) :=
    controlled.frame rfl rfl rfl rfl rfl rfl rfl controlled.queue rfl
  refine ⟨taken.register ds copierStarts, ?_, ?_⟩
  · intro ticket
    rw [places_register]
    have counted := ThreadPool.count_eraseIdx (fun ds : DownloadingSnapshot P => [ds.ticket])
      found ticket
    unfold places
    simp only
    omega
  · exact calls_register ds copierStarts

theorem Controlled.tail (controlled : Controlled executor) {position : Nat} {first : TailStep P}
    {rest : List (TailStep P)} (found : executor.tails[position]? = some (first :: rest)) :
    Keeps executor (({ executor with tails := executor.tails.eraseIdx position ++ [rest] } :
      InstallSessions P).tailStep first) := by
  have signals := ThreadPool.sum_eraseIdx tailJobs found
  have tickets := ThreadPool.count_eraseIdx tailTickets found
  have left : ({ executor with tails := executor.tails.eraseIdx position ++ [rest] } :
      InstallSessions P).pendingSignals + stepJobs first = executor.pendingSignals := by
    unfold pendingSignals
    rw [signals]
    simp only [List.map_append, List.sum_append, List.map_cons, List.map_nil, List.sum_cons,
      List.sum_nil, tailJobs]
    omega
  have held (ticket : Nat) : ({ executor with
      tails := executor.tails.eraseIdx position ++ [rest] } :
        InstallSessions P).places ticket + (stepTickets first).count ticket =
          executor.places ticket := by
    have taken := tickets ticket
    unfold places
    simp only [List.flatMap_append, List.flatMap_cons, List.flatMap_nil, List.append_nil,
      List.count_append, tailTickets] at taken ⊢
    omega
  cases first with
  | reply ds response =>
      refine ⟨?_, ?_, rfl⟩
      · refine controlled.frame rfl rfl rfl rfl rfl rfl ?_ controlled.queue rfl
        change executor.runningJobs - (pendingSignals _ : Int) = _
        rw [← left]
        rfl
      · intro ticket
        rw [← held ticket]
        unfold places tailStep
        simp only [List.flatMap_append, List.flatMap_cons, List.flatMap_nil, List.append_nil,
          List.count_append, stepTickets]
        omega
  | signal =>
      refine ⟨?_, ?_, rfl⟩
      · refine controlled.frame rfl rfl rfl rfl rfl rfl ?_ controlled.queue rfl
        have counted : (({ executor with tails := executor.tails.eraseIdx position ++ [rest] } :
            InstallSessions P).tailStep .signal).pendingSignals + 1 = executor.pendingSignals :=
          left
        rw [← counted]
        push_cast
        exact sub_right_comm _ _ _ |>.trans (sub_sub _ _ _)
      · intro ticket
        rw [← held ticket]
        rfl
  | saveAnswer status =>
      refine ⟨?_, ?_, rfl⟩
      · refine controlled.frame rfl rfl rfl rfl rfl rfl ?_ controlled.queue rfl
        change executor.runningJobs - (pendingSignals _ : Int) = _
        rw [← left]
        rfl
      · intro ticket
        rw [← held ticket]
        rfl

/-! ### Runs -/

/-- A fresh executor, with the last snapshot that `init` has loaded. -/
def Initial (executor : InstallSessions P) : Prop :=
  ∃ lastSnapshotTerm lastSnapshotIndex term minIndexGap, executor =
    { lastSnapshotTerm := lastSnapshotTerm, lastSnapshotIndex := lastSnapshotIndex,
      term := term, minIndexGap := minIndexGap }

def system : TransitionSystem (InstallSessions P) (Action P) :=
  { init := Initial, allowed := fun _ _ => True, step := step }

structure Adds (executor after : InstallSessions P) : Prop where
  controlled : Controlled after
  places : ∀ ticket, after.places ticket =
    executor.places ticket + [executor.calls].count ticket
  calls : after.calls = executor.calls + 1

theorem Keeps.placed (kept : Keeps executor after) (placed : Placed executor) :
    Placed after := by
  intro ticket
  rw [kept.places, kept.calls]
  exact placed ticket

theorem Adds.placed (adds : Adds executor after) (placed : Placed executor) : Placed after := by
  intro ticket
  rw [adds.places, adds.calls, placed ticket, List.count_singleton]
  by_cases new : executor.calls = ticket
  · subst new
    simp
  · have other : (executor.calls == ticket) = false := by simpa using new
    simp only [other, Bool.false_eq_true, if_false, Nat.add_zero]
    by_cases former : ticket < executor.calls
    · rw [if_pos former, if_pos (Nat.lt_succ_of_lt former)]
    · rw [if_neg former, if_neg (by omega)]

theorem Controlled.step {action : Action P} (controlled : Controlled executor)
    (stepped : step action executor = some after) : Keeps executor after ∨ Adds executor after := by
  have keeps (kept : Keeps executor after) : Keeps executor after ∨ Adds executor after :=
    Or.inl kept
  cases action with
  | installSnapshot request throttled =>
      obtain rfl := Option.some.inj stepped
      refine Or.inr ⟨controlled.installSnapshot request throttled, ?_, ?_⟩
      · exact places_installSnapshot request throttled
      · unfold InstallSessions.installSnapshot
        cases throttled <;> rfl
  | doSnapshot appliedIndex createsWriter hasDone =>
      obtain rfl := Option.some.inj stepped
      exact keeps (controlled.doSnapshot appliedIndex createsWriter hasDone)
  | interrupt newTerm =>
      obtain rfl := Option.some.inj stepped
      exact keeps (controlled.interrupt newTerm)
  | shutdown =>
      obtain rfl := Option.some.inj stepped
      exact keeps ⟨controlled.frame rfl rfl rfl rfl rfl rfl rfl (fun _ => rfl) rfl,
        fun _ => rfl, rfl⟩
  | stopQueue =>
      simp only [InstallSessions.step] at stepped
      split at stepped
      · rename_i isStopped
        obtain rfl := Option.some.inj stepped
        exact keeps ⟨controlled.frame rfl rfl rfl rfl rfl rfl rfl (fun _ => isStopped) rfl,
          fun _ => rfl, rfl⟩
      · contradiction
  | destroy =>
      simp only [InstallSessions.step] at stepped
      split at stepped
      · rename_i joined
        obtain rfl := Option.some.inj stepped
        exact keeps (controlled.destroy joined.2)
      · contradiction
  | register position copierStarts =>
      obtain ⟨ds, found, rfl⟩ := Option.map_eq_some_iff.mp stepped
      exact keeps (controlled.registers found copierStarts)
  | copierFinishes code hasReader =>
      simp only [InstallSessions.step] at stepped
      split at stepped
      · rename_i found
        obtain rfl := Option.some.inj stepped
        exact keeps (controlled.copierFinishes found code hasReader)
      · contradiction
  | session position status =>
      obtain ⟨session, found, moved⟩ := Option.bind_eq_some_iff.mp stepped
      exact keeps (controlled.session found moved)
  | save position status snapshot writes =>
      obtain ⟨save, found, rfl⟩ := Option.map_eq_some_iff.mp stepped
      exact keeps (controlled.save found)
  | stop position =>
      obtain ⟨term, _, rfl⟩ := Option.map_eq_some_iff.mp stepped
      have taken : Controlled ({ executor with
          stopping := executor.stopping.eraseIdx position } : InstallSessions P) :=
        controlled.frame rfl rfl rfl rfl rfl rfl rfl controlled.queue rfl
      have kept := taken.interrupt term
      exact keeps ⟨kept.controlled, kept.places, kept.calls⟩
  | tail position =>
      simp only [InstallSessions.step] at stepped
      split at stepped
      · rename_i found
        obtain rfl := Option.some.inj stepped
        exact keeps (controlled.tail found)
      · contradiction

theorem controlled_of_reachable (reached : system.Reachable executor) :
    Controlled executor ∧ Placed executor := by
  induction reached with
  | start initial =>
      obtain ⟨lastSnapshotTerm, lastSnapshotIndex, term, minIndexGap, rfl⟩ := initial
      exact ⟨⟨Or.inl ⟨rfl, rfl, rfl, rfl⟩, Or.inl ⟨rfl, rfl⟩, rfl, nofun, rfl⟩, fun _ => rfl⟩
  | next _ _ stepped ih =>
      obtain ⟨controlled, placed⟩ := ih
      rcases controlled.step stepped with kept | adds
      · exact ⟨kept.controlled, kept.placed placed⟩
      · exact ⟨adds.controlled, adds.placed placed⟩

/-! ### Work that is left -/

def sessionWork : InstallSession P → Nat
  | .joining _ _ => 7
  | .joined _ _ => 6
  | .submitting => 5
  | .loading _ => 4
  | .finishing _ _ => 3

def saveWork : SaveSession P → Nat
  | .saving _ _ => 5
  | .closing _ _ _ _ => 4
  | .closed _ _ _ => 3

def work (executor : InstallSessions P) : Nat :=
  10 * executor.arrived.length + (executor.sessions.map sessionWork).sum +
    (executor.saves.map saveWork).sum + executor.stopping.length +
    (executor.tails.map List.length).sum +
    (if executor.curCopier.any (fun copier => copier.finished.isNone) then 1 else 0)

/-- The steps of threads that are in the executor, of the copier and of the state machine. -/
def Ongoing : Action P → Prop
  | .register _ _ => True
  | .copierFinishes _ _ => True
  | .session _ _ => True
  | .save _ _ _ _ => True
  | .stop _ => True
  | .tail _ => True
  | _ => False

theorem work_leave (executor : InstallSessions P) (tail : List (TailStep P)) :
    (executor.leave tail).work = executor.work + tail.length := by
  unfold work InstallSessions.leave
  simp only [List.map_append, List.sum_append, List.map_cons, List.map_nil, List.sum_cons,
    List.sum_nil]
  omega

theorem work_cancelCopier (executor : InstallSessions P) :
    executor.cancelCopier.work = executor.work := by
  unfold work InstallSessions.cancelCopier
  cases executor.curCopier <;> rfl

theorem work_register (executor : InstallSessions P) (ds : DownloadingSnapshot P)
    (copierStarts : Bool) :
    (executor.registerDownloadingSnapshot ds copierStarts).work ≤ executor.work + 8 := by
  have refused (response : InstallSnapshotResponse) :
      (executor.refuse ds response).work ≤ executor.work + 8 := by
    unfold refuse
    rw [work_leave]
    exact Nat.add_le_add_left (Nat.le_add_left 1 7) _
  unfold registerDownloadingSnapshot
  split_ifs
  · exact refused _
  · exact refused _
  · exact refused _
  · exact refused _
  · split
    · unfold InstallSessions.startDownloading
      simp only
      split
      · unfold work check
        simp only [List.map_append, List.sum_append, List.map_cons, List.map_nil, List.sum_cons,
          List.sum_nil, sessionWork]
        split <;> split <;> omega
      · unfold refuse
        rw [work_leave]
        unfold work check
        simp only [List.length_singleton]
        simp
        omega
    · unfold InstallSessions.meetDownloading
      simp only
      split_ifs
      · unfold refuse
        rw [work_leave]
        exact Nat.add_le_add_left (Nat.le_add_left 1 7) _
      · exact refused _
      · exact refused _
      · unfold refuse
        rw [work_leave, work_cancelCopier]
        exact Nat.add_le_add_left (Nat.le_add_left 1 7) _

theorem work_noCopier (executor : InstallSessions P) :
    ({ executor with curCopier := none } : InstallSessions P).work ≤ executor.work := by
  unfold work
  exact Nat.add_le_add_left (Nat.zero_le _) _

theorem work_goesOn (executor : InstallSessions P) (session : InstallSession P) :
    ({ executor with sessions := executor.sessions ++ [session] } : InstallSessions P).work =
      executor.work + sessionWork session := by
  unfold work
  simp only [List.map_append, List.sum_append, List.map_cons, List.map_nil, List.sum_cons,
    List.sum_nil]
  omega

theorem work_savesOn (executor : InstallSessions P) (save : SaveSession P) :
    ({ executor with saves := executor.saves ++ [save] } : InstallSessions P).work =
      executor.work + saveWork save := by
  unfold work
  simp only [List.map_append, List.sum_append, List.map_cons, List.map_nil, List.sum_cons,
    List.sum_nil]
  omega

theorem work_finishCopy (downloading : Downloading P) (snapshot : SnapshotMeta P) (code : Int)
    (hasReader : Bool) :
    (executor.finishCopy downloading snapshot code hasReader).work ≤ executor.work + 5 := by
  have less := work_noCopier executor
  have left (finished : InstallSessions P) (tail : List (TailStep P))
      (same : finished.work = ({ executor with curCopier := none } : InstallSessions P).work)
      (short : tail.length = 2) : (finished.leave tail).work ≤ executor.work + 5 := by
    rw [work_leave, same, short]
    omega
  unfold finishCopy
  simp only
  by_cases failed : code ≠ 0
  · rw [if_pos failed]
    split
    · exact left _ _ rfl rfl
    · exact left _ _ rfl rfl
  · rw [if_neg failed]
    split
    · exact left _ _ rfl rfl
    · exact (work_goesOn _ _).le.trans (Nat.add_le_add_right less _)

theorem work_session {status : Int} {session : InstallSession P}
    (stepped : executor.sessionStep status session = some after) :
    after.work < executor.work + sessionWork session := by
  cases session with
  | joining address snapshot =>
      simp only [sessionStep] at stepped
      split at stepped
      · split at stepped
        · obtain rfl := Option.some.inj stepped
          exact (work_goesOn _ _).trans_lt (Nat.add_lt_add_left (Nat.lt_succ_self 6) _)
        · contradiction
      · obtain rfl := Option.some.inj stepped
        exact Nat.lt_add_of_pos_right (Nat.succ_pos 6)
  | joined address snapshot =>
      obtain rfl := Option.some.inj stepped
      unfold loadDownloadingSnapshot
      simp only
      split
      · exact (work_finishCopy _ _ _ _).trans_lt (Nat.add_lt_add_left (Nat.lt_succ_self 5) _)
      · exact Nat.lt_add_of_pos_right (Nat.succ_pos 5)
  | submitting =>
      obtain rfl := Option.some.inj stepped
      exact (work_goesOn _ _).trans_lt (Nat.add_lt_add_left (Nat.lt_succ_self 4) _)
  | loading refused =>
      obtain rfl := Option.some.inj stepped
      unfold loadDone
      simp only
      split
      · split
        · exact (work_goesOn _ _).trans_lt (Nat.add_lt_add_left (Nat.lt_succ_self 3) _)
        · exact (work_goesOn _ _).trans_lt (Nat.add_lt_add_left (Nat.lt_succ_self 3) _)
      · exact (work_goesOn _ _).trans_lt (Nat.add_lt_add_left (Nat.lt_succ_self 3) _)
  | finishing address status =>
      obtain rfl := Option.some.inj stepped
      unfold loadEnd
      simp only
      split
      · exact (work_leave _ _).trans_lt (Nat.add_lt_add_left (Nat.lt_succ_self 2) _)
      · exact (work_leave _ _).trans_lt (Nat.add_lt_add_left (Nat.lt_add_of_pos_right (k := 2)
          (Nat.succ_pos 1)) _)

theorem work_save (executor : InstallSessions P) (status : Int) (snapshot : SnapshotMeta P)
    (writes : Bool) (save : SaveSession P) :
    (executor.saveStep status snapshot writes save).work < executor.work + saveWork save := by
  cases save with
  | saving hasDone refused =>
      exact (work_savesOn _ _).trans_lt (Nat.add_lt_add_left (Nat.lt_succ_self 4) _)
  | closing hasDone status ret snapshot =>
      simp only [saveStep]
      split
      · split
        · exact (work_savesOn _ _).trans_lt (Nat.add_lt_add_left (Nat.lt_succ_self 3) _)
        · exact (work_savesOn _ _).trans_lt (Nat.add_lt_add_left (Nat.lt_succ_self 3) _)
      · split
        · exact (work_savesOn _ _).trans_lt (Nat.add_lt_add_left (Nat.lt_succ_self 3) _)
        · exact (work_savesOn _ _).trans_lt (Nat.add_lt_add_left (Nat.lt_succ_self 3) _)
  | closed hasDone status ret =>
      have left (finished : InstallSessions P) (tail : List (TailStep P))
          (same : finished.work = executor.work) (short : tail.length ≤ 2) :
          (finished.leave tail).work < executor.work + 3 := by
        rw [work_leave, same]
        omega
      simp only [saveStep]
      split
      · refine left _ _ rfl ?_
        cases hasDone <;> simp
      · refine left _ _ rfl ?_
        cases hasDone <;> simp

theorem work_decreases {action : Action P} (ongoing : Ongoing action)
    (stepped : step action executor = some after) : after.work < executor.work := by
  cases action with
  | installSnapshot request throttled => exact ongoing.elim
  | doSnapshot appliedIndex createsWriter hasDone => exact ongoing.elim
  | interrupt newTerm => exact ongoing.elim
  | shutdown => exact ongoing.elim
  | stopQueue => exact ongoing.elim
  | destroy => exact ongoing.elim
  | register position copierStarts =>
      obtain ⟨ds, found, rfl⟩ := Option.map_eq_some_iff.mp stepped
      have inside := (List.getElem?_eq_some_iff.mp found).1
      have bound := work_register { executor with
        arrived := executor.arrived.eraseIdx position } ds copierStarts
      have taken : ({ executor with
          arrived := executor.arrived.eraseIdx position } : InstallSessions P).work + 10 =
            executor.work := by
        unfold work
        simp only [List.length_eraseIdx_of_lt inside]
        omega
      omega
  | copierFinishes code hasReader =>
      simp only [step] at stepped
      split at stepped
      · rename_i found
        obtain rfl := Option.some.inj stepped
        unfold work
        rw [found]
        simp
      · contradiction
  | session position status =>
      obtain ⟨session, found, moved⟩ := Option.bind_eq_some_iff.mp stepped
      have less := work_session moved
      have taken := ThreadPool.sum_eraseIdx sessionWork found
      unfold work at less ⊢
      simp only at less
      omega
  | save position status snapshot writes =>
      obtain ⟨save, found, rfl⟩ := Option.map_eq_some_iff.mp stepped
      have less := work_save { executor with
        saves := executor.saves.eraseIdx position } status snapshot writes save
      have taken := ThreadPool.sum_eraseIdx saveWork found
      refine lt_of_lt_of_le less ?_
      unfold work
      simp only
      omega
  | stop position =>
      obtain ⟨term, found, rfl⟩ := Option.map_eq_some_iff.mp stepped
      have inside := (List.getElem?_eq_some_iff.mp found).1
      have taken : ({ executor with
          stopping := executor.stopping.eraseIdx position } : InstallSessions P).work + 1 =
            executor.work := by
        unfold work
        simp only [List.length_eraseIdx_of_lt inside]
        omega
      have same : (({ executor with
          stopping := executor.stopping.eraseIdx position } :
            InstallSessions P).interruptDownloadingSnapshot term).work =
          ({ executor with
            stopping := executor.stopping.eraseIdx position } : InstallSessions P).work := by
        unfold interruptDownloadingSnapshot
        simp only
        split
        · rfl
        · split
          · rfl
          · exact work_cancelCopier _
      omega
  | tail position =>
      simp only [step] at stepped
      split at stepped
      · rename_i first rest found
        obtain rfl := Option.some.inj stepped
        have taken := ThreadPool.sum_eraseIdx List.length found
        have same : (({ executor with
            tails := executor.tails.eraseIdx position ++ [rest] } :
              InstallSessions P).tailStep first).work =
            ({ executor with
              tails := executor.tails.eraseIdx position ++ [rest] } : InstallSessions P).work := by
          cases first <;> rfl
        rw [same]
        unfold work
        simp only [List.map_append, List.sum_append, List.map_cons, List.map_nil, List.sum_cons,
          List.sum_nil]
        rw [List.length_cons] at taken
        omega
      · contradiction

/-! ### The protocol -/

def runs (executor : InstallSessions P) (ticket : Nat) : Nat :=
  (executor.answered.map Prod.fst).count ticket

theorem runs_le_places (executor : InstallSessions P) (ticket : Nat) :
    executor.runs ticket ≤ executor.places ticket := by
  unfold runs places
  rw [List.map_eq_flatMap]
  omega

theorem Controlled.quiet (controlled : Controlled executor)
    (stuck : ∀ action, Ongoing action → InstallSessions.step action executor = none)
    (ticket : Nat) : executor.places ticket = executor.runs ticket := by
  have arrived : executor.arrived = [] := by
    cases found : executor.arrived with
    | nil => rfl
    | cons ds rest =>
        have blocked := stuck (.register 0 true) trivial
        simp only [InstallSessions.step, found, List.getElem?_cons_zero, Option.map_some] at blocked
        contradiction
  have noDownload : executor.downloadingSnapshot = none := by
    rcases controlled.installing with ⟨_, none, _⟩ | ⟨session, one, phase⟩
    · exact none
    · exfalso
      have blocked := stuck (.session 0 0) trivial
      simp only [InstallSessions.step, one, List.getElem?_cons_zero, Option.bind_some] at blocked
      cases session with
      | joining address snapshot =>
          obtain ⟨_, hasCopier, _⟩ := phase
          obtain ⟨⟨cancelled, finished⟩, isCopier⟩ := Option.isSome_iff_exists.mp hasCopier
          cases finished with
          | none =>
              have unfinished := stuck (.copierFinishes 0 true) trivial
              simp only [InstallSessions.step, isCopier] at unfinished
              contradiction
          | some outcome =>
              simp only [sessionStep, isCopier, Option.isSome_some, if_true] at blocked
              contradiction
      | joined address snapshot => contradiction
      | submitting => contradiction
      | loading refused => contradiction
      | finishing address status => contradiction
  have tails : executor.tails.flatMap tailTickets = [] := by
    refine List.flatMap_eq_nil_iff.mpr ?_
    intro tail member
    cases tail with
    | nil => rfl
    | cons first rest =>
        obtain ⟨position, found⟩ := List.mem_iff_getElem?.mp member
        have blocked := stuck (.tail position) trivial
        simp only [InstallSessions.step, found] at blocked
        contradiction
  unfold places runs
  rw [arrived, noDownload, tails, List.map_eq_flatMap]
  rfl

/-- No check has failed; nobody saves while somebody downloads; no closure is run twice, and
each one has been run when the threads have come to their ends. -/
structure ProtocolKept (executor : InstallSessions P) : Prop where
  checks : executor.checksHold = true
  flags : executor.downloadingSnapshot.isSome = true → executor.savingSnapshot = false
  threads : executor.sessions = [] ∨ executor.saves = []
  once : ∀ ticket, executor.runs ticket ≤ if ticket < executor.calls then 1 else 0
  answered : (∀ action, Ongoing action → InstallSessions.step action executor = none) →
    ∀ ticket, executor.runs ticket = if ticket < executor.calls then 1 else 0
  ends : ∀ action after, Ongoing action → InstallSessions.step action executor = some after →
    after.work < executor.work

theorem install_snapshot_protocol (reached : system.Reachable executor) :
    ProtocolKept executor := by
  obtain ⟨controlled, placed⟩ := controlled_of_reachable reached
  constructor
  · exact controlled.checks
  · exact fun running => (controlled.notSaving running).2
  · rcases controlled.saving with ⟨none, _⟩ | ⟨_, _, none⟩
    · exact Or.inr none
    · exact Or.inl none
  · intro ticket
    rw [← placed ticket]
    exact runs_le_places executor ticket
  · intro stuck ticket
    rw [← placed ticket]
    exact (controlled.quiet stuck ticket).symm
  · exact fun action after ongoing stepped => work_decreases ongoing stepped

def newerSnapshot : InstallSnapshotRequest Nat :=
  { term := 1
    snapshotMeta := { lastIncludedIndex := 5, lastIncludedTerm := 1, peers := [1], oldPeers := [] }
    uri := "remote://127.0.0.1:8200/1" }

/-- A retry comes while its snapshot is downloaded, and gets the answer. -/
theorem install_snapshot_protocol_retry :
    ∃ executor : InstallSessions Nat, ProtocolKept executor ∧ executor.lastSnapshotIndex = 5 ∧
      executor.answered = [(0, .failed EINTR), (1, .replied 1 true)] := by
  have follows : ∃ executor : InstallSessions Nat, system.Follows
      [.installSnapshot newerSnapshot false, .register 0 true,
        .installSnapshot newerSnapshot false, .register 0 true, .tail 0, .copierFinishes 0 true,
        .session 0 0, .session 0 0, .session 0 0, .session 0 0, .session 0 0, .tail 1, .tail 1]
      { term := 1 } executor ∧ executor.lastSnapshotIndex = 5 ∧
        executor.answered = [(0, .failed EINTR), (1, .replied 1 true)] :=
    ⟨_, ⟨trivial, _, rfl, trivial, _, rfl, trivial, _, rfl, trivial, _, rfl, trivial, _, rfl,
      trivial, _, rfl, trivial, _, rfl, trivial, _, rfl, trivial, _, rfl, trivial, _, rfl,
      trivial, _, rfl, trivial, _, rfl, trivial, _, rfl, rfl⟩, rfl, rfl⟩
  obtain ⟨executor, follows, isLast, answers⟩ := follows
  have initial : Initial ({ term := 1 } : InstallSessions Nat) := ⟨0, 0, 1, 1, rfl⟩
  have reached := TransitionSystem.Reachable.follows _ (.start initial) follows
  exact ⟨executor, install_snapshot_protocol reached, isLast, answers⟩

end InstallSessions

end QuorumKit
