/-
The text forms of peers and peer sets, `braft/configuration.h` and `.cpp`.

A `std::set<PeerId>` is the list of its members in the order of `operator<`, which looks at
the address and the index but not at the role.  It is printed with commas between its members
and read back field by field.  The splitter of the fields belongs to `butil` and is a
parameter, as the text of an IP address is.
-/

import Mathlib.Data.Prod.Lex
import QuorumKit.Log.TornTail

namespace QuorumKit

open Library

variable {I : Type}

namespace PeerId

section Order

variable [LinearOrder I]

/-- `operator<` of peers, over that of their addresses. -/
instance : LT (PeerId I) :=
  ⟨fun id1 id2 =>
    (id1.ip < id2.ip ∨ (id1.ip = id2.ip ∧ id1.port.toInt < id2.port.toInt)) ∨
      (id1.ip = id2.ip ∧ id1.port = id2.port) ∧ id1.idx.toInt < id2.idx.toInt⟩

instance (id1 id2 : PeerId I) : Decidable (id1 < id2) :=
  inferInstanceAs (Decidable ((_ ∨ (_ ∧ _)) ∨ (_ ∧ _) ∧ _))

/-- What `operator<` compares. -/
def key (id : PeerId I) : I ×ₗ Int ×ₗ Int := toLex (id.ip, toLex (id.port.toInt, id.idx.toInt))

theorem lt_iff_key (id1 id2 : PeerId I) : id1 < id2 ↔ id1.key < id2.key := by
  have ports : id1.port = id2.port ↔ id1.port.toInt = id2.port.toInt := Int32.toInt_inj.symm
  unfold key
  rw [Prod.Lex.toLex_lt_toLex, Prod.Lex.toLex_lt_toLex]
  change (_ ∨ (_ ∧ _)) ∨ (_ ∧ _) ∧ _ ↔ _
  rw [ports]
  tauto

theorem before_trans {id1 id2 id3 : PeerId I} (first : id1 < id2) (second : id2 < id3) :
    id1 < id3 := by
  rw [lt_iff_key] at *
  exact lt_trans first second

end Order

/-- `operator<<`. -/
def print (ips : IpText I) (peer : PeerId I) : List Char :=
  ips.ip2str peer.ip ++ ':' :: (printInt peer.port.toInt ++
    ':' :: (printInt peer.idx.toInt ++ ':' :: printInt peer.role.toInt))

theorem toString_print (ips : IpText I) (peer : PeerId I) :
    peer.toString ips = peer.print ips := peer.toString_eq ips

end PeerId

theorem not_mem_printInt {char : Char} (noSign : char ≠ '-') (noDigit : char.isDigit = false)
    (value : Int) : char ∉ printInt value := by
  have digits : char ∉ decimal (Nat.log 10 value.natAbs + 1) value.natAbs := by
    intro member
    rw [decimal_isDigit member] at noDigit
    contradiction
  unfold printInt
  simp only
  split
  · exact digits
  · exact List.not_mem_cons_of_ne_of_not_mem noSign digits

theorem PeerId.print_noComma (ips : IpText I) (noComma : ∀ ip, ',' ∉ ips.ip2str ip)
    (peer : PeerId I) : ',' ∉ peer.print ips := by
  have number (value : Int) : ',' ∉ printInt value :=
    not_mem_printInt (by decide) (by decide) value
  have colon : (',' : Char) ≠ ':' := by decide
  unfold PeerId.print
  simp only [List.mem_append, List.mem_cons, not_or]
  exact ⟨noComma peer.ip, colon, number _, colon, number _, colon, number _⟩

theorem PeerId.print_ne_nil (ips : IpText I) (peer : PeerId I) : peer.print ips ≠ [] := by
  unfold PeerId.print
  exact List.append_ne_nil_of_left_ne_nil (ips.nonempty peer.ip) _

section Sets

variable [LinearOrder I]

/-- `std::set<PeerId>`. -/
structure PeerSet (I : Type) [LinearOrder I] where
  peers : List (PeerId I)
  sorted : peers.Pairwise (· < ·)

/-- `insert`: a member that is neither before nor behind the peer keeps its place. -/
def insertPeer (peer : PeerId I) : List (PeerId I) → List (PeerId I)
  | [] => [peer]
  | head :: rest =>
      if peer < head then peer :: head :: rest
      else if head < peer then head :: insertPeer peer rest
      else head :: rest

theorem mem_insertPeer {peer member : PeerId I} {peers : List (PeerId I)}
    (isMember : member ∈ insertPeer peer peers) : member = peer ∨ member ∈ peers := by
  induction peers with
  | nil => exact Or.inl (List.mem_singleton.mp isMember)
  | cons head rest ih =>
      unfold insertPeer at isMember
      split_ifs at isMember
      · exact List.mem_cons.mp isMember
      · rcases List.mem_cons.mp isMember with rfl | later
        · exact Or.inr List.mem_cons_self
        · exact (ih later).imp_right (List.mem_cons_of_mem _)
      · exact Or.inr isMember

theorem insertPeer_sorted (peer : PeerId I) {peers : List (PeerId I)}
    (sorted : peers.Pairwise (· < ·)) : (insertPeer peer peers).Pairwise (· < ·) := by
  induction peers with
  | nil => exact List.pairwise_singleton _ _
  | cons head rest ih =>
      obtain ⟨first, later⟩ := List.pairwise_cons.mp sorted
      unfold insertPeer
      split_ifs with before behind
      · refine List.pairwise_cons.mpr ⟨fun other isOther => ?_, sorted⟩
        rcases List.mem_cons.mp isOther with rfl | isLater
        · exact before
        · exact PeerId.before_trans before (first other isLater)
      · refine List.pairwise_cons.mpr ⟨fun other isOther => ?_, ih later⟩
        rcases mem_insertPeer isOther with rfl | isLater
        · exact behind
        · exact first other isLater
      · exact sorted

namespace PeerSet

def empty : PeerSet I := ⟨[], List.Pairwise.nil⟩

def addPeer (set : PeerSet I) (peer : PeerId I) : PeerSet I :=
  ⟨insertPeer peer set.peers, insertPeer_sorted peer set.sorted⟩

theorem insertPeer_last {peer : PeerId I} {peers : List (PeerId I)}
    (behind : ∀ member ∈ peers, member < peer) : insertPeer peer peers = peers ++ [peer] := by
  induction peers with
  | nil => rfl
  | cons head rest ih =>
      have before := behind head List.mem_cons_self
      have notBehind : ¬ peer < head := by
        rw [PeerId.lt_iff_key] at *
        exact lt_asymm before
      unfold insertPeer
      rw [if_neg notBehind, if_pos before,
        ih (fun member isMember => behind member (List.mem_cons_of_mem _ isMember))]
      rfl

/-- `operator<<` of a configuration. -/
def print (ips : IpText I) : List (PeerId I) → List Char
  | [] => []
  | [peer] => peer.print ips
  | peer :: rest => peer.print ips ++ ',' :: print ips rest

/-- `butil::StringSplitter` for commas: it gives the fields of a text without a comma at its
ends or two in a row. -/
structure FieldSplitter where
  fields : List Char → List (List Char)
  fields_intercalate : ∀ parts : List (List Char), (∀ part ∈ parts, part ≠ [] ∧ ',' ∉ part) →
    fields ([','].intercalate parts) = parts

/-- The loop of `parse_from`. -/
def parseFields (ips : IpText I) : List (List Char) → PeerSet I → Int × PeerSet I
  | [], set => (0, set)
  | field :: rest, set =>
      match PeerId.parse ips field with
      | none => (-1, set)
      | some peer => parseFields ips rest (set.addPeer peer)

def parseFrom (ips : IpText I) (splitter : FieldSplitter) (conf : List Char) : Int × PeerSet I :=
  parseFields ips (splitter.fields conf) empty

omit [LinearOrder I] in
theorem print_eq (ips : IpText I) (peers : List (PeerId I)) :
    print ips peers = [','].intercalate (peers.map (PeerId.print ips)) := by
  induction peers with
  | nil => rfl
  | cons peer rest ih =>
      cases rest with
      | nil => exact (List.intercalate_singleton).symm
      | cons next rest =>
          rw [List.map_cons, List.map_cons, List.intercalate_cons_cons, ← List.map_cons, ← ih,
            List.append_assoc]
          rfl

theorem parseFields_print (ips : IpText I) (peers : List (PeerId I)) (set : PeerSet I)
    (sorted : (set.peers ++ peers).Pairwise (· < ·)) :
    parseFields ips (peers.map (PeerId.print ips)) set = (0, ⟨set.peers ++ peers, sorted⟩) := by
  induction peers generalizing set with
  | nil =>
      unfold parseFields
      simp only [List.map_nil, List.append_nil]
  | cons peer rest ih =>
      have behind : ∀ member ∈ set.peers, member < peer := fun member isMember =>
        (List.pairwise_append.mp sorted).2.2 member isMember peer List.mem_cons_self
      have added : (set.addPeer peer).peers = set.peers ++ [peer] := insertPeer_last behind
      have same : (set.addPeer peer).peers ++ rest = set.peers ++ peer :: rest := by
        rw [added, List.append_assoc, List.singleton_append]
      rw [List.map_cons, parseFields, ← PeerId.toString_print, PeerId.parse_toString]
      simp only
      rw [ih (set.addPeer peer) (same ▸ sorted)]
      simp only [same]

theorem parseFrom_print (ips : IpText I) (splitter : FieldSplitter)
    (noComma : ∀ ip, ',' ∉ ips.ip2str ip) (set : PeerSet I) :
    parseFrom ips splitter (print ips set.peers) = (0, set) := by
  have fields : splitter.fields (print ips set.peers) = set.peers.map (PeerId.print ips) := by
    rw [print_eq]
    refine splitter.fields_intercalate _ (fun part member => ?_)
    obtain ⟨peer, _, rfl⟩ := List.mem_map.mp member
    exact ⟨peer.print_ne_nil ips, peer.print_noComma ips noComma⟩
  unfold parseFrom
  rw [fields]
  exact parseFields_print ips set.peers empty set.sorted

end PeerSet

open PeerSet

structure TextRoundTrips (ips : IpText I) (splitter : FieldSplitter)
    (message : ConfigurationPBMeta) : Prop where
  peer : ∀ peer : PeerId I, PeerId.parse ips (peer.toString ips) = some peer
  set : ∀ set : PeerSet I, parseFrom ips splitter (print ips set.peers) = (0, set)
  entry : ∀ (peers : List (PeerId I)) (oldPeers : Option (List (PeerId I))) (data : Bytes),
    serializeConfigurationMeta ips message peers oldPeers = some data →
      ∃ read, parseConfigurationMeta ips message data = some (peers, read) ∧
        read.getD [] = oldPeers.getD [] ∧ (oldPeers ≠ some [] → read = oldPeers)

theorem keptOldPeers_same {P : Type} (oldPeers : Option (List P)) :
    (keptOldPeers oldPeers).getD [] = oldPeers.getD [] ∧
      (oldPeers ≠ some [] → keptOldPeers oldPeers = oldPeers) := by
  cases oldPeers with
  | none => exact ⟨rfl, fun _ => rfl⟩
  | some peers =>
      cases peers with
      | nil => exact ⟨rfl, fun different => absurd rfl different⟩
      | cons peer rest => exact ⟨rfl, fun _ => rfl⟩

theorem text_roundTrips (ips : IpText I) (splitter : FieldSplitter)
    (message : ConfigurationPBMeta) (noComma : ∀ ip, ',' ∉ ips.ip2str ip) :
    TextRoundTrips ips splitter message := by
  constructor
  · exact PeerId.parse_toString ips
  · exact PeerSet.parseFrom_print ips splitter noComma
  · intro peers oldPeers data serialized
    have read := (peerCodec ips message (fun _ _ => 0)).parse_serialize peers oldPeers data
      serialized
    exact ⟨_, read, keptOldPeers_same oldPeers⟩

end Sets

def commaSplitter : PeerSet.FieldSplitter where
  fields input := (input.splitOn ',').filter (fun part => part ≠ [])
  fields_intercalate := by
    intro parts isPart
    cases parts with
    | nil => rfl
    | cons part rest =>
        rw [List.splitOn_intercalate ',' (fun field member => (isPart field member).2)
          (List.cons_ne_nil _ _)]
        exact List.filter_eq_self.mpr (fun field member => decide_eq_true (isPart field member).1)

def twoPeers : PeerSet Bool where
  peers := [⟨false, 8001, -1, .witness⟩, firstPeer]
  sorted := by decide

theorem text_roundTrips_twoPeers :
    PeerSet.parseFrom twoHosts commaSplitter "10.0.0.2:8001:-1:1,10.0.0.1:8000:0:0".toList =
        (0, twoPeers) ∧
      parseConfigurationMeta twoHosts firstPeerMessage firstPeerMeta =
        some ([firstPeer], none) := by
  have trips := text_roundTrips twoHosts commaSplitter firstPeerMessage (by decide)
  have printed : PeerSet.print twoHosts twoPeers.peers =
      "10.0.0.2:8001:-1:1,10.0.0.1:8000:0:0".toList := by decide
  have serialized : serializeConfigurationMeta twoHosts firstPeerMessage [firstPeer] none =
      some firstPeerMeta := by decide
  obtain ⟨read, parsed, _, same⟩ := trips.entry [firstPeer] none firstPeerMeta serialized
  rw [same (by decide)] at parsed
  exact ⟨printed ▸ trips.set twoPeers, parsed⟩

end QuorumKit
