/-
The timestamp of a quorum, `last_leader_active_timestamp` of `braft/node.cpp`.

A leader looks at the times of the last RPCs that its followers have answered, and
takes the latest time since which a quorum has been in touch with it.  The heap that it
uses holds as many followers as the leader needs besides itself, and the leader is not
always a member of the configuration.
-/

import QuorumKit.Configuration
import QuorumKit.Library.BoundedHeap
import QuorumKit.Library.Quorum

namespace QuorumKit

variable {P : Type}

/-- `ReplicatorGroup::last_rpc_send_timestamp`: a peer without a replicator has 0. -/
def lastRpcSendTimestamp (rmap : P → Option Nat) (peer : P) : Nat := (rmap peer).getD 0

namespace Configuration

variable [DecidableEq P]

def followerTimestamps (conf : Configuration P) (serverId : P) (rmap : P → Option Nat) :
    List Nat :=
  (conf.peers.filter (fun peer => peer ≠ serverId)).map (lastRpcSendTimestamp rmap)

/-- `last_leader_active_timestamp(conf)` at the time `now`. -/
def lastLeaderActiveTimestamp (conf : Configuration P) (serverId : P) (rmap : P → Option Nat)
    (now : Nat) : Nat :=
  match BoundedHeap.pushAll (conf.size / 2) (conf.followerTimestamps serverId rmap) with
  | [] => now
  | least :: _ => least

/-- `last_leader_active_timestamp()`: in a joint configuration both have to agree. -/
def jointActiveTimestamp (conf oldConf : Configuration P) (serverId : P)
    (rmap : P → Option Nat) (now : Nat) : Nat :=
  let timestamp := conf.lastLeaderActiveTimestamp serverId rmap now
  if oldConf.isEmpty then timestamp
  else min timestamp (oldConf.lastLeaderActiveTimestamp serverId rmap now)

/-- The leader, and the peers it has been in touch with since a time. -/
def ActiveSince (serverId : P) (rmap : P → Option Nat) (since : Nat) (peer : P) : Prop :=
  peer = serverId ∨ since ≤ lastRpcSendTimestamp rmap peer

instance (serverId : P) (rmap : P → Option Nat) (since : Nat) :
    DecidablePred (ActiveSince serverId rmap since) :=
  fun _ => inferInstanceAs (Decidable (_ ∨ _))

/-- The members that have been active since a time are a majority. -/
def QuorumSince (conf : Configuration P) (serverId : P) (rmap : P → Option Nat) (since : Nat) :
    Prop :=
  Majority conf.peers.toFinset (conf.peers.toFinset.filter (ActiveSince serverId rmap since))

instance (conf : Configuration P) (serverId : P) (rmap : P → Option Nat) (since : Nat) :
    Decidable (conf.QuorumSince serverId rmap since) :=
  inferInstanceAs (Decidable (Majority _ _))

/-- One peer more than the heap holds has the time of its top: the leader is not needed. -/
def TiedAtBound (conf : Configuration P) (rmap : P → Option Nat) : Prop :=
  ∃ time, conf.peers.countP (fun peer => time < lastRpcSendTimestamp rmap peer) < conf.size / 2 ∧
    conf.size / 2 < conf.peers.countP (fun peer => time ≤ lastRpcSendTimestamp rmap peer)

/-- The leader is a member, or the followers have a quorum without it. -/
def LeaderCounts (conf : Configuration P) (serverId : P) (rmap : P → Option Nat) (now : Nat) :
    Prop :=
  conf.contains serverId = true ∨
    (conf.size = 1 ∧ ∀ peer ∈ conf.peers, now ≤ lastRpcSendTimestamp rmap peer) ∨
    conf.TiedAtBound rmap

variable {conf oldConf : Configuration P} {serverId : P} {rmap : P → Option Nat} {now since : Nat}

theorem quorumSince_iff_countP :
    conf.QuorumSince serverId rmap since ↔
      conf.size < 2 * conf.peers.countP (ActiveSince serverId rmap since) := by
  have members : conf.peers.toFinset.card = conf.size := List.toFinset_card_of_nodup conf.nodup
  have active : (conf.peers.toFinset ∩
      conf.peers.toFinset.filter (ActiveSince serverId rmap since)).card =
        conf.peers.countP (ActiveSince serverId rmap since) := by
    have isList : conf.peers.toFinset.filter (ActiveSince serverId rmap since) =
        (conf.peers.filter (ActiveSince serverId rmap since)).toFinset := by
      ext peer
      simp
    rw [Finset.inter_eq_right.mpr (Finset.filter_subset _ _), isList,
      List.toFinset_card_of_nodup (conf.nodup.filter _), List.countP_eq_length_filter]
  unfold QuorumSince Majority
  rw [members, active]

theorem followerTimestamps_countP (test : Nat → Bool) :
    (conf.followerTimestamps serverId rmap).countP test =
      conf.peers.countP (fun peer =>
        test (lastRpcSendTimestamp rmap peer) && decide (peer ≠ serverId)) := by
  unfold followerTimestamps
  rw [List.countP_map, List.countP_filter]
  rfl

theorem followerTimestamps_countP_all (outside : serverId ∉ conf.peers) (test : Nat → Bool) :
    (conf.followerTimestamps serverId rmap).countP test =
      conf.peers.countP (fun peer => test (lastRpcSendTimestamp rmap peer)) := by
  rw [followerTimestamps_countP]
  refine List.countP_congr (fun peer member => ?_)
  have other : peer ≠ serverId := fun same => outside (same ▸ member)
  simp [other]

theorem followerTimestamps_length_all (outside : serverId ∉ conf.peers) :
    (conf.followerTimestamps serverId rmap).length = conf.size := by
  have counts : (conf.followerTimestamps serverId rmap).countP (fun _ => true) =
      conf.peers.countP (fun _ => true) := followerTimestamps_countP_all outside (fun _ => true)
  rwa [List.countP_true, List.countP_true] at counts

theorem countP_active (inside : serverId ∈ conf.peers) :
    conf.peers.countP (ActiveSince serverId rmap since) =
      (conf.followerTimestamps serverId rmap).countP (fun time => since ≤ time) + 1 := by
  have leader : conf.peers.countP (fun peer => decide (peer = serverId)) = 1 := by
    have once := List.count_eq_one_of_mem conf.nodup inside
    rw [List.count_eq_countP] at once
    rw [← once]
    exact List.countP_congr (fun peer _ => by simp)
  rw [followerTimestamps_countP, ← leader]
  have nodup := conf.nodup
  clear leader inside
  generalize conf.peers = peers
  induction peers with
  | nil => rfl
  | cons peer rest ih =>
      rw [List.countP_cons, List.countP_cons, List.countP_cons, ih]
      by_cases same : peer = serverId
      · simp [ActiveSince, same]
        omega
      · by_cases late : since ≤ lastRpcSendTimestamp rmap peer
        · simp [ActiveSince, same, late]
          omega
        · simp [ActiveSince, same, late]

theorem followerTimestamps_length (inside : serverId ∈ conf.peers) :
    (conf.followerTimestamps serverId rmap).length + 1 = conf.size := by
  have active : conf.peers.countP (ActiveSince serverId rmap 0) =
      (conf.followerTimestamps serverId rmap).countP (fun time => 0 ≤ time) + 1 :=
    countP_active inside
  have everyone : conf.peers.countP (ActiveSince serverId rmap 0) = conf.peers.length := by
    rw [List.countP_eq_length]
    exact fun peer _ => decide_eq_true (Or.inr (Nat.zero_le _))
  have followers : (conf.followerTimestamps serverId rmap).countP (fun time => 0 ≤ time) =
      (conf.followerTimestamps serverId rmap).length := by
    rw [List.countP_eq_length]
    exact fun time _ => decide_eq_true (Nat.zero_le time)
  rw [everyone, followers] at active
  exact active.symm

theorem lastLeaderActiveTimestamp_member (inside : serverId ∈ conf.peers) :
    conf.QuorumSince serverId rmap (conf.lastLeaderActiveTimestamp serverId rmap now) := by
  have largest := BoundedHeap.pushAll_largest (conf.size / 2)
    (conf.followerTimestamps serverId rmap)
  have length := largest.length
  have followers : (conf.followerTimestamps serverId rmap).length + 1 = conf.size :=
    followerTimestamps_length inside
  rw [quorumSince_iff_countP, countP_active inside]
  unfold lastLeaderActiveTimestamp
  cases isHeap : BoundedHeap.pushAll (conf.size / 2) (conf.followerTimestamps serverId rmap) with
  | nil =>
      rw [isHeap, List.length_nil] at length
      omega
  | cons least rest =>
      rw [isHeap] at largest length
      have reached := largest.count_le
      simp only
      omega

theorem countP_active_all (outside : serverId ∉ conf.peers) :
    conf.peers.countP (ActiveSince serverId rmap since) =
      conf.peers.countP (fun peer => since ≤ lastRpcSendTimestamp rmap peer) := by
  refine List.countP_congr (fun peer member => ?_)
  have other : peer ≠ serverId := fun same => outside (same ▸ member)
  simp [ActiveSince, other]

theorem quorumSince_now (outside : serverId ∉ conf.peers) (few : conf.size / 2 = 0) :
    conf.QuorumSince serverId rmap now ↔
      conf.size = 1 ∧ ∀ peer ∈ conf.peers, now ≤ lastRpcSendTimestamp rmap peer := by
  have bounded : conf.peers.countP (fun peer => decide (now ≤ lastRpcSendTimestamp rmap peer)) ≤
      conf.size := List.countP_le_length
  rw [quorumSince_iff_countP, countP_active_all outside]
  constructor
  · intro quorum
    have whole : conf.peers.countP (fun peer =>
        decide (now ≤ lastRpcSendTimestamp rmap peer)) = conf.peers.length := by
      change _ = conf.size
      omega
    refine ⟨by omega, fun peer member => ?_⟩
    exact of_decide_eq_true (List.countP_eq_length.mp whole peer member)
  · rintro ⟨single, all⟩
    have whole : conf.peers.countP (fun peer =>
        decide (now ≤ lastRpcSendTimestamp rmap peer)) = conf.peers.length :=
      List.countP_eq_length.mpr (fun peer member => decide_eq_true (all peer member))
    have size : conf.peers.length = conf.size := rfl
    omega

omit [DecidableEq P] in
theorem not_tiedAtBound (few : conf.size / 2 = 0) : ¬ conf.TiedAtBound rmap := by
  rintro ⟨time, above, _⟩
  omega

theorem quorumSince_outside (outside : serverId ∉ conf.peers) (several : 0 < conf.size / 2) :
    conf.QuorumSince serverId rmap (conf.lastLeaderActiveTimestamp serverId rmap now) ↔
      conf.TiedAtBound rmap := by
  have largest := BoundedHeap.pushAll_largest (conf.size / 2)
    (conf.followerTimestamps serverId rmap)
  have length := largest.length
  rw [followerTimestamps_length_all outside] at length
  rw [quorumSince_iff_countP, countP_active_all outside]
  unfold lastLeaderActiveTimestamp
  cases isHeap : BoundedHeap.pushAll (conf.size / 2) (conf.followerTimestamps serverId rmap) with
  | nil =>
      rw [isHeap, List.length_nil] at length
      omega
  | cons least rest =>
      rw [isHeap] at largest length
      have reached := largest.count_le
      have exceeded := largest.count_lt
      rw [followerTimestamps_countP_all outside] at reached exceeded
      simp only
      constructor
      · intro quorum
        exact ⟨least, by omega, by omega⟩
      · rintro ⟨time, above, atLeast⟩
        -- a later time would leave the whole heap above it
        have notLater : least ≤ time := by
          by_contra earlier
          have more : conf.peers.countP (fun peer =>
              decide (least ≤ lastRpcSendTimestamp rmap peer)) ≤
                conf.peers.countP (fun peer => decide (time < lastRpcSendTimestamp rmap peer)) := by
            refine List.countP_mono_left (fun peer _ late => ?_)
            have late := of_decide_eq_true late
            exact decide_eq_true (by omega)
          omega
        have more : conf.peers.countP (fun peer =>
            decide (time ≤ lastRpcSendTimestamp rmap peer)) ≤
              conf.peers.countP (fun peer => decide (least ≤ lastRpcSendTimestamp rmap peer)) := by
          refine List.countP_mono_left (fun peer _ late => ?_)
          have late := of_decide_eq_true late
          exact decide_eq_true (by omega)
        omega

/-- The timestamp is that of a quorum exactly when the leader counts. -/
theorem quorumTimestamp_iff (conf : Configuration P) (serverId : P) (rmap : P → Option Nat)
    (now : Nat) :
    conf.QuorumSince serverId rmap (conf.lastLeaderActiveTimestamp serverId rmap now) ↔
      conf.LeaderCounts serverId rmap now := by
  unfold LeaderCounts
  rw [contains_iff]
  by_cases inside : serverId ∈ conf.peers
  · exact ⟨fun _ => Or.inl inside, fun _ => lastLeaderActiveTimestamp_member inside⟩
  · rw [or_iff_right inside]
    by_cases several : 0 < conf.size / 2
    · rw [quorumSince_outside inside several]
      refine (or_iff_right ?_).symm
      rintro ⟨single, _⟩
      omega
    · have few : conf.size / 2 = 0 := by omega
      have empty : BoundedHeap.pushAll (conf.size / 2)
          (conf.followerTimestamps serverId rmap) = [] := by
        have length := (BoundedHeap.pushAll_largest (conf.size / 2)
          (conf.followerTimestamps serverId rmap)).length
        rw [few, Nat.zero_min] at length
        rw [few]
        exact List.length_eq_zero_iff.mp length
      unfold lastLeaderActiveTimestamp
      rw [empty, quorumSince_now inside few]
      exact (or_iff_left (not_tiedAtBound few)).symm

/-- A leader of two peers that it is not one of: the second has been silent. -/
theorem quorumTimestamp_outside :
    ¬ ((ofList [1, 2] : Configuration Nat).QuorumSince 0
      (fun peer => if peer = 1 then some 9 else none)
      ((ofList [1, 2] : Configuration Nat).lastLeaderActiveTimestamp 0
        (fun peer => if peer = 1 then some 9 else none) 10)) := by
  decide

theorem QuorumSince.mono {earlier : Nat} (below : earlier ≤ since)
    (quorum : conf.QuorumSince serverId rmap since) : conf.QuorumSince serverId rmap earlier := by
  unfold QuorumSince at quorum ⊢
  refine quorum.mono (Finset.monotone_filter_right _ (fun peer _ active => ?_))
  exact active.imp_right below.trans

/-- In a joint configuration the timestamp is that of a quorum of both sets of peers, as
long as the leader counts in both. -/
theorem jointActiveTimestamp_quorum (counts : conf.LeaderCounts serverId rmap now)
    (oldCounts : oldConf.isEmpty = false → oldConf.LeaderCounts serverId rmap now) :
    conf.QuorumSince serverId rmap (conf.jointActiveTimestamp oldConf serverId rmap now) ∧
      (oldConf.isEmpty = false →
        oldConf.QuorumSince serverId rmap
          (conf.jointActiveTimestamp oldConf serverId rmap now)) := by
  have quorum := (quorumTimestamp_iff conf serverId rmap now).mpr counts
  unfold jointActiveTimestamp
  cases isEmpty : oldConf.isEmpty with
  | true => exact ⟨quorum, fun other => absurd other (by decide)⟩
  | false =>
      have oldQuorum := (quorumTimestamp_iff oldConf serverId rmap now).mpr (oldCounts isEmpty)
      exact ⟨quorum.mono (min_le_left _ _), fun _ => oldQuorum.mono (min_le_right _ _)⟩

/-- While a peer is being added, the older set is the one that lags. -/
theorem jointActiveTimestamp_added :
    (ofList [1, 2, 3] : Configuration Nat).QuorumSince 1 (fun peer => some (2 * peer)) 4 ∧
      (ofList [1, 2] : Configuration Nat).QuorumSince 1 (fun peer => some (2 * peer)) 4 := by
  have isTimestamp : (ofList [1, 2, 3] : Configuration Nat).jointActiveTimestamp (ofList [1, 2]) 1
      (fun peer => some (2 * peer)) 9 = 4 := by decide
  have inside : (ofList [1, 2, 3] : Configuration Nat).contains 1 = true := by decide
  have oldInside : (ofList [1, 2] : Configuration Nat).contains 1 = true := by decide
  rw [← isTimestamp]
  refine And.imp_right (fun old => old ?_)
    (jointActiveTimestamp_quorum (Or.inl inside) (fun _ => Or.inl oldInside))
  decide

end Configuration

end QuorumKit
