/-
When a copied file is the source file.

The destination is at every moment the front of the source with some zeros at
its end left out; retries repeat an offset and never move it.  What is left out
at the end of the last reply stays out.
-/

import QuorumKit.Library.FileSystem
import QuorumKit.Snapshot.RemoteFileCopier

namespace QuorumKit

open Library (Bytes Covers padTo)

/-! ### Writing a destination -/

namespace Destination

variable (destination : Destination)

theorem put_beyond {written : Bytes} {offset : Nat} (beyond : written.length ≤ offset)
    (data : Bytes) : destination.put written offset data = padTo written offset ++ data := by
  cases destination with
  | file => exact Library.writeAt_beyond beyond data
  | ioBuf => exact Library.resizeAppend_beyond beyond data

theorem put_put (written : Bytes) (offset : Nat) (first second : Bytes) :
    destination.put (destination.put written offset first) (offset + first.length) second =
      destination.put written offset (first ++ second) := by
  cases destination with
  | file => exact Library.writeAt_writeAt written offset first second
  | ioBuf => exact Library.resizeAppend_resizeAppend written offset first second

theorem putAll_concat (written : Bytes) (pieces : List (Nat × Bytes)) (piece : Nat × Bytes) :
    destination.putAll written (pieces ++ [piece]) =
      destination.put (destination.putAll written pieces) piece.1 piece.2 := by
  rw [putAll, List.foldl_append]
  rfl

end Destination

theorem chop_flatten (sizes : List Nat) (bytes : Bytes) :
    (chop sizes bytes).flatten = bytes := by
  induction sizes generalizing bytes with
  | nil =>
      cases bytes with
      | nil => rfl
      | cons byte rest => simp [chop]
  | cons size sizes ih =>
      cases bytes with
      | nil => rfl
      | cons byte rest =>
          rw [chop, List.flatten_cons, ih]
          · exact List.take_append_drop (size + 1) (byte :: rest)
          · exact List.cons_ne_nil byte rest

theorem chop_nonempty (sizes : List Nat) (bytes : Bytes) :
    ∀ block ∈ chop sizes bytes, block ≠ [] := by
  induction sizes generalizing bytes with
  | nil =>
      cases bytes with
      | nil => simp [chop]
      | cons byte rest => simp [chop]
  | cons size sizes ih =>
      cases bytes with
      | nil => simp [chop]
      | cons byte rest =>
          intro block member
          rw [chop] at member
          · rcases List.mem_cons.mp member with same | later
            · rw [same]
              simp
            · exact ih _ block later
          · exact List.cons_ne_nil byte rest

theorem shifted_zero {block : Bytes} {step : Nat} (positive : 0 < step)
    (front : block.take step = List.replicate step 0)
    (same : block.take (block.length - step) = block.drop step) :
    block = List.replicate block.length 0 := by
  have zero : ∀ index (inside : index < block.length), block[index] = 0 := by
    intro index
    induction index using Nat.strong_induction_on with
    | _ index ih =>
        intro inside
        by_cases first : index < step
        · have found : (block.take step)[index]? = some block[index] := by
            rw [List.getElem?_take_of_lt first]
            exact List.getElem?_eq_getElem inside
          rw [front, List.getElem?_replicate, if_pos first] at found
          exact (Option.some.inj found).symm
        · have earlier : index - step < block.length := by omega
          have found : (block.drop step)[index - step]? = some block[index] := by
            rw [List.getElem?_drop, Nat.add_sub_cancel' (Nat.le_of_not_lt first)]
            exact List.getElem?_eq_getElem inside
          have bound : index - step < block.length - step := by omega
          rw [← same, List.getElem?_take_of_lt bound,
            List.getElem?_eq_getElem earlier] at found
          rw [← Option.some.inj found]
          exact ih (index - step) (by omega) earlier
  apply List.eq_replicate_of_mem
  intro byte member
  rcases List.getElem_of_mem member with ⟨index, inside, found⟩
  rw [← found]
  exact zero index inside

theorem isZero_zeros {block : Bytes} (zero : isZero block) :
    block = List.replicate block.length 0 := by
  unfold isZero at zero
  dsimp only at zero
  by_cases long : 8 ≤ block.length
  · rw [if_pos long, decide_eq_true_eq] at zero
    exact shifted_zero (by decide) zero.1 zero.2
  · rw [if_neg long] at zero
    by_cases some : 0 < block.length
    · rw [if_pos some, decide_eq_true_eq] at zero
      exact shifted_zero (by decide) zero.1 zero.2
    · rw [if_neg some] at zero
      cases zero

/-! ### The segments of one reply -/

/-- The writer of a reply to a destination: its segments lie between the offset
of the request and the one reached, and cover the source up to there. -/
structure Encoded (destination : Destination) (written source : Bytes) (start stop : Nat)
    (seg : FileSegData) (closed : List (Nat × Bytes)) : Prop where
  holds : seg.Holds closed
  placed : ∀ piece ∈ seg.pieces closed,
    start ≤ piece.1 ∧ 0 < piece.2.length ∧ piece.1 + piece.2.length ≤ stop
  covers : Covers (destination.putAll written (seg.pieces closed)) source stop

section Reply

variable {destination : Destination} {written source : Bytes} {start stop : Nat}
  {seg : FileSegData} {closed : List (Nat × Bytes)}

theorem Encoded.append (encoded : Encoded destination written source start stop seg closed)
    (reached : start ≤ stop) {bytes : Bytes} (some : bytes ≠ [])
    (next : bytes <+: source.drop stop) :
    ∃ after,
      Encoded destination written source start (stop + bytes.length)
        (seg.append bytes stop) after ∧
      (destination.putAll written ((seg.append bytes stop).pieces after)).length =
        stop + bytes.length := by
  have positive : 0 < bytes.length := List.length_pos_iff.mpr some
  rcases encoded.holds.append some stop with ⟨after, holds, outcome⟩
  have effect : destination.putAll written ((seg.append bytes stop).pieces after) =
      padTo (destination.putAll written (seg.pieces closed)) stop ++ bytes := by
    rw [← destination.put_beyond encoded.covers.short]
    cases outcome with
    | inl follows => rw [follows, destination.putAll_concat]
    | inr joined =>
        rcases joined with ⟨front, last, before, same, joined⟩
        rw [joined, before, destination.putAll_concat, destination.putAll_concat]
        dsimp only
        rw [same, destination.put_put]
  have placed : ∀ piece ∈ (seg.append bytes stop).pieces after,
      start ≤ piece.1 ∧ 0 < piece.2.length ∧
        piece.1 + piece.2.length ≤ stop + bytes.length := by
    intro piece member
    cases outcome with
    | inl follows =>
        rw [follows] at member
        rcases List.mem_append.mp member with earlier | added
        · have old := encoded.placed piece earlier
          omega
        · rw [List.mem_singleton.mp added]
          exact ⟨reached, positive, Nat.le_refl _⟩
    | inr joined =>
        rcases joined with ⟨front, last, before, same, joined⟩
        rw [joined] at member
        rcases List.mem_append.mp member with earlier | added
        · have old := encoded.placed piece (by rw [before]; exact List.mem_append_left _ earlier)
          omega
        · have old := encoded.placed last (by rw [before]; simp)
          rw [List.mem_singleton.mp added]
          simp only [List.length_append]
          omega
  refine ⟨after, ⟨holds, placed, ?_⟩, ?_⟩
  · rw [effect]
    exact encoded.covers.write next
  · rw [effect, List.length_append, Library.padTo_length encoded.covers.short]

theorem Encoded.skip (encoded : Encoded destination written source start stop seg closed)
    {count : Nat} (next : List.replicate count 0 <+: source.drop stop) :
    Encoded destination written source start (stop + count) seg closed where
  holds := encoded.holds
  placed piece member := by
    have old := encoded.placed piece member
    omega
  covers := encoded.covers.skip next

theorem prefix_of_append {block rest source : Bytes} {offset : Nat}
    (next : block ++ rest <+: source.drop offset) :
    block <+: source.drop offset ∧ rest <+: source.drop (offset + block.length) := by
  rcases next with ⟨tail, same⟩
  constructor
  · exact ⟨rest ++ tail, by rw [← same, List.append_assoc]⟩
  · refine ⟨tail, ?_⟩
    rw [← List.drop_drop, ← same, List.append_assoc, List.drop_left]

theorem Encoded.blocks (blocks : List Bytes) (nonempty : ∀ block ∈ blocks, block ≠ [])
    (encoded : Encoded destination written source start stop seg closed)
    (reached : start ≤ stop) (next : blocks.flatten <+: source.drop stop) :
    ∃ after,
      Encoded destination written source start (stop + blocks.flatten.length)
        (appendBlocks seg stop blocks) after ∧
      ∀ last, blocks.getLast? = some last →
        ((destination.putAll written
            ((appendBlocks seg stop blocks).pieces after)).length =
          stop + blocks.flatten.length ↔ isZero last = false) := by
  induction blocks generalizing seg closed stop with
  | nil => exact ⟨closed, encoded, fun last missing => absurd missing (by simp)⟩
  | cons block rest ih =>
      have positive : 0 < block.length :=
        List.length_pos_iff.mpr (nonempty block (List.mem_cons_self ..))
      have later : ∀ other ∈ rest, other ≠ [] :=
        fun other member => nonempty other (List.mem_cons_of_mem block member)
      rw [List.flatten_cons] at next
      have parts := prefix_of_append next
      have total : stop + (block :: rest).flatten.length =
          stop + block.length + rest.flatten.length := by
        rw [List.flatten_cons, List.length_append, Nat.add_assoc]
      rw [total, appendBlocks]
      have step : ∃ middle,
          Encoded destination written source start (stop + block.length)
            (if isZero block then seg else seg.append block stop) middle ∧
          ((destination.putAll written
              ((if isZero block then seg else seg.append block stop).pieces middle)).length =
            stop + block.length ↔ isZero block = false) := by
        cases zero : isZero block with
        | true =>
            rw [if_pos rfl]
            have zeros := parts.1
            rw [isZero_zeros zero] at zeros
            refine ⟨closed, encoded.skip zeros, ?_⟩
            have short := encoded.covers.short
            constructor
            · intro same
              omega
            · intro impossible
              cases impossible
        | false =>
            rw [if_neg Bool.false_ne_true]
            rcases encoded.append reached (nonempty block (List.mem_cons_self ..)) parts.1 with
              ⟨middle, appended, same⟩
            exact ⟨middle, appended, iff_of_true same rfl⟩
      rcases step with ⟨middle, encodedMiddle, ends⟩
      cases rest with
      | nil =>
          refine ⟨middle, encodedMiddle, ?_⟩
          intro last found
          cases found
          exact ends
      | cons other others =>
          rcases ih later encodedMiddle (Nat.le_trans reached (Nat.le_add_right _ _))
            parts.2 with ⟨after, encodedAfter, lastEnds⟩
          refine ⟨after, encodedAfter, ?_⟩
          intro last found
          rw [List.getLast?_cons_cons] at found
          exact lastEnds last found

theorem putAll_attachment (destination : Destination) (service : FileService)
    (sizes : List Nat) {data : Bytes} {offset : Nat} (covers : Covers written source offset)
    (next : data <+: source.drop offset) (file : source.length < 2 ^ 63)
    (buffer : data.length < 2 ^ 32) :
    let after := destination.putAll written
      (FileSegData.segments (service.attachment offset (chop sizes data)))
    Covers after source (offset + data.length) ∧
      (data = [] → after = written) ∧
      ∀ last, (chop sizes data).getLast? = some last →
        (after.length = offset + data.length ↔
          ¬ (service.fileCheckHole ∧ isZero last)) := by
  have within := Library.piece_within covers.within next
  have decoded : ∀ {seg : FileSegData} {closed : List (Nat × Bytes)},
      Encoded destination written source offset (offset + data.length) seg closed →
        FileSegData.segments seg.close.data = seg.pieces closed := by
    intro seg closed encoded
    rw [encoded.holds.close_data]
    apply FileSegData.segments_encode
    intro piece member
    have placed := encoded.placed piece member
    exact ⟨by omega, placed.2.1, by omega⟩
  have empty : Encoded destination written source offset offset {} [] :=
    { holds := FileSegData.Holds.empty
      placed := fun piece member => absurd member (by simp [FileSegData.pieces])
      covers := covers }
  unfold FileService.attachment
  rw [chop_flatten]
  by_cases none : data = []
  · subst none
    rw [if_pos rfl]
    refine ⟨covers, fun _ => rfl, ?_⟩
    intro last found
    cases sizes with
    | nil => cases found
    | cons size rest => cases found
  · rw [if_neg none]
    cases checked : service.fileCheckHole with
    | true =>
        rw [if_pos rfl]
        rcases empty.blocks (chop sizes data) (chop_nonempty sizes data) (Nat.le_refl offset)
          (by rwa [chop_flatten]) with ⟨after, encoded, ends⟩
        rw [chop_flatten] at encoded ends
        rw [decoded encoded]
        refine ⟨encoded.covers, fun absent => absurd absent none, ?_⟩
        intro last found
        rw [ends last found]
        simp
    | false =>
        rw [if_neg Bool.false_ne_true]
        rcases empty.append (Nat.le_refl offset) none next with ⟨after, encoded, ends⟩
        rw [decoded encoded]
        refine ⟨encoded.covers, fun absent => absurd absent none, ?_⟩
        intro last found
        simp [ends]

end Reply

/-! ### Reading -/

namespace SnapshotFileReader

variable (snapshot : SnapshotFileReader)

structure Reads (request : GetFileRequest) (source data : Bytes) (eof : Bool) : Prop where
  next : data <+: source.drop request.offset
  buffer : data.length < 2 ^ 32
  ends : eof = true ↔ request.offset + data.length = source.length
  some : eof = false → 0 < data.length
  full : eof = false → request.readPartly = false → data.length = request.count

theorem source_fits (filename : String) : (snapshot.source filename).length < 2 ^ 63 := by
  unfold source
  split
  · have fits := snapshot.metaFits
    omega
  · cases found : snapshot.files.lookup filename with
    | none => decide
    | some file => exact snapshot.filesFit _ (Library.mem_of_lookup_eq_some found)

theorem readFileWithMeta_ok {reader after : LocalDirReader} {files : List (String × Bytes)}
    {filename : String} {offset maxCount : Nat} {data : Bytes} {eof : Bool}
    (served : reader.readFileWithMeta files filename offset maxCount =
      (.ok (data, eof), after)) :
    ∃ file, files.lookup filename = some file ∧ data = (file.drop offset).take maxCount ∧
      eof = decide (data.length < maxCount ∨ file.length = offset + maxCount) := by
  unfold LocalDirReader.readFileWithMeta at served
  split at served
  · cases served
  · split at served
    · cases served
    · split at served
      · cases served
      · rename_i file found
        cases served
        exact ⟨file, found, rfl, rfl⟩

theorem read_ends {file : Bytes} {offset maxCount : Nat} (within : offset ≤ file.length) :
    let data := (file.drop offset).take maxCount
    (data.length < maxCount ∨ file.length = offset + maxCount) ↔
      offset + data.length = file.length := by
  dsimp only
  rw [List.length_take, List.length_drop]
  omega

theorem readFile_reads {reader after : LocalDirReader} {throttle : Option Nat}
    {request : GetFileRequest} {data : Bytes} {eof : Bool}
    (served : snapshot.readFile reader throttle request = (.ok (data, eof), after))
    (within : request.offset ≤ (snapshot.source request.filename).length)
    (whole : request.filename = snapshot.metaFileName → request.offset = 0)
    (positive : 0 < request.count) (small : request.count < 2 ^ 32) :
    Reads request (snapshot.source request.filename) data eof := by
  unfold readFile at served
  by_cases metaFile : request.filename = snapshot.metaFileName
  · rw [if_pos metaFile] at served
    have source : snapshot.source request.filename = snapshot.metaTable := by
      rw [SnapshotFileReader.source, if_pos metaFile]
    cases served
    have fits := snapshot.metaFits
    exact
      { next := by rw [source, whole metaFile]; exact List.prefix_refl _
        buffer := by omega
        ends := by rw [source, whole metaFile, Nat.zero_add]; exact iff_of_true rfl rfl
        some := fun impossible => absurd impossible (by decide)
        full := fun impossible => absurd impossible (by decide) }
  · rw [if_neg metaFile] at served
    split at served
    · cases served
    · dsimp only at served
      have atMost := throttledByThroughput_le throttle request.count
      generalize throttledByThroughput throttle request.count = maxCount at served atMost
      split at served
      · cases served
      · rename_i granted
        rcases readFileWithMeta_ok served with ⟨file, found, rfl, rfl⟩
        have source : snapshot.source request.filename = file := by
          rw [SnapshotFileReader.source, if_neg metaFile, found]
          rfl
        rw [source] at within ⊢
        have bound := List.length_take_le maxCount (file.drop request.offset)
        exact
          { next := List.take_prefix _ _
            buffer := by omega
            ends := by
              rw [decide_eq_true_eq]
              exact read_ends within
            some := by
              intro goesOn
              rw [decide_eq_false_iff_not, not_or] at goesOn
              have allowed : ¬ (maxCount < request.count ∧ maxCount = 0) :=
                fun held => granted ⟨held.1, Or.inr held.2⟩
              omega
            full := by
              intro goesOn partly
              rw [decide_eq_false_iff_not, not_or] at goesOn
              rw [partly] at granted
              have all : ¬ maxCount < request.count :=
                fun less => granted ⟨less, Or.inl Bool.false_ne_true⟩
              omega }

theorem readFile_error {reader after : LocalDirReader} {throttle : Option Nat}
    {request : GetFileRequest} {code : Int}
    (failed : snapshot.readFile reader throttle request = (.error code, after)) :
    code ≠ 0 := by
  unfold readFile LocalDirReader.readFileWithMeta at failed
  dsimp only at failed
  repeat' split at failed
  all_goals cases failed
  all_goals decide

end SnapshotFileReader

/-! ### Sessions -/

namespace CopySession

variable (service : FileService) (options : CopyOptions)

def source (session : CopySession) : Bytes := service.snapshot.source session.filename

structure Copying (session : CopySession) : Prop where
  covers : Covers session.written (session.source service) (session.offset + session.count)
  missing : session.offset + session.count = 0 ∨
    session.offset + session.count < (session.source service).length
  whole : session.filename = service.snapshot.metaFileName →
    session.offset + session.count = 0
  unfinished : session.finished = false
  clean : session.status = 0

def tailBlock (session : CopySession) : Attempt → Option Bytes
  | .rpc throttle (.served reader granted sizes _) _ =>
      match (session.sendNextRpc options throttle).2 with
      | none => none
      | some request =>
          match (service.snapshot.readFile reader granted request).1 with
          | .ok (data, true) => (chop sizes data).getLast?
          | _ => none
  | _ => none

/-- The reply that ends the file leaves its last block out as a hole. -/
def EndsInHole (session : CopySession) (attempt : Attempt) : Prop :=
  service.fileCheckHole ∧
    ∃ block, session.tailBlock service options attempt = some block ∧ isZero block

def HoleFree : CopySession → List Attempt → Prop
  | _, [] => True
  | session, next :: rest =>
      (session.finished = false → ¬ session.EndsInHole service options next) ∧
        HoleFree (session.attempt service options next) rest

inductive Outcome (session : CopySession) (attempt : Attempt) : Prop where
  | failed (finished : (session.attempt service options attempt).finished)
      (status : (session.attempt service options attempt).status ≠ 0)
  | goesOn (copying : Copying service (session.attempt service options attempt))
      (same : (session.attempt service options attempt).filename = session.filename)
      (open_ : ¬ session.EndsInHole service options attempt)
  | ended (finished : (session.attempt service options attempt).finished)
      (exact_ : (session.attempt service options attempt).written = session.source service ↔
        ¬ session.EndsInHole service options attempt)

variable {service options}

theorem onFinished_failed {session : CopySession} (closes : Bool)
    (failed : session.status ≠ 0) :
    (session.onFinished closes).finished ∧ (session.onFinished closes).status ≠ 0 := by
  refine ⟨rfl, ?_⟩
  unfold onFinished
  dsimp only
  split
  · decide
  · exact failed

theorem onRpcFailed_cases (options : CopyOptions) (session : CopySession) {code : Int}
    (closes : Bool)
    (nonzero : code ≠ 0)
    (copying : Copying service { session with count := 0 }) :
    let after := session.onRpcFailed options code closes
    (after.finished ∧ after.status ≠ 0) ∨
      (Copying service after ∧ after.filename = session.filename) := by
  unfold onRpcFailed
  dsimp only
  split
  · exact Or.inl (onFinished_failed closes nonzero)
  · split
    · exact Or.inr ⟨copying, rfl⟩
    · split
      · exact Or.inl (onFinished_failed closes nonzero)
      · exact Or.inr ⟨⟨copying.covers, copying.missing, copying.whole, copying.unfinished,
          copying.clean⟩, rfl⟩

theorem cancel_failed {session : CopySession} (closes : Bool)
    (copying : Copying service session) :
    (session.cancel closes).finished ∧ (session.cancel closes).status ≠ 0 := by
  unfold cancel
  rw [if_neg (by rw [copying.unfinished]; exact Bool.false_ne_true)]
  apply onFinished_failed
  dsimp only
  rw [copying.clean]
  decide

theorem sendNextRpc_cases (options : CopyOptions) (throttle : Option Nat) {session : CopySession}
    (copying : Copying service session) :
    let sent := session.sendNextRpc options throttle
    (sent.2 = none ∧ Copying service sent.1 ∧ sent.1.filename = session.filename) ∨
      ∃ count, 0 < count ∧ count < 2 ^ 32 ∧
        sent = ({ session with offset := session.offset + session.count, count := count },
          some
            { filename := session.filename
              count := count
              offset := session.offset + session.count
              readPartly := options.allowReadPartly }) := by
  unfold sendNextRpc
  have unfinished : ¬ session.finished := by
    rw [copying.unfinished]
    exact Bool.false_ne_true
  dsimp only
  rw [if_neg unfinished]
  by_cases held : newMaxCount options session.destination throttle = 0
  · rw [if_pos held]
    exact Or.inl ⟨rfl, ⟨copying.covers, copying.missing, copying.whole,
      copying.unfinished, copying.clean⟩, rfl⟩
  · rw [if_neg held]
    refine Or.inr ⟨_, Nat.pos_of_ne_zero held, ?_, rfl⟩
    unfold newMaxCount
    cases session.destination with
    | file =>
        have atMost := throttledByThroughput_le throttle (maxCount options .file)
        have fits := options.fits
        change throttledByThroughput throttle options.maxByteCountPerRpc ≤
          options.maxByteCountPerRpc at atMost
        change throttledByThroughput throttle options.maxByteCountPerRpc < 2 ^ 32
        omega
    | ioBuf =>
        change uintMax < 2 ^ 32
        decide

theorem next_count {request : GetFileRequest} {source data : Bytes}
    (reads : SnapshotFileReader.Reads request source data false)
    (partly : request.readPartly = options.allowReadPartly) :
    (if data.length ≠ 0 ∧ options.allowReadPartly then data.length else request.count) =
      data.length := by
  cases allowed : options.allowReadPartly with
  | true => rw [if_pos ⟨Nat.ne_of_gt (reads.some rfl), rfl⟩]
  | false =>
      rw [if_neg (fun both => Bool.false_ne_true both.2)]
      exact (reads.full rfl (partly.trans allowed)).symm

theorem ended_exact {session : CopySession} (copying : Copying service session)
    (sizes : List Nat) {data : Bytes}
    (next : data <+: (session.source service).drop (session.offset + session.count))
    (buffer : data.length < 2 ^ 32)
    (ends : session.offset + session.count + data.length = (session.source service).length) :
    session.destination.putAll session.written
        (FileSegData.segments
          (service.attachment (session.offset + session.count) (chop sizes data))) =
        session.source service ↔
      ¬ (service.fileCheckHole ∧
        ∃ block, (chop sizes data).getLast? = some block ∧ isZero block) := by
  have effect := putAll_attachment session.destination service sizes
    copying.covers next (service.snapshot.source_fits session.filename) buffer
  dsimp only at effect
  rw [ends] at effect
  rw [effect.1.exact_iff]
  cases found : (chop sizes data).getLast? with
  | none =>
      have empty : data = [] := by
        rw [List.getLast?_eq_none_iff] at found
        rw [← chop_flatten sizes data, found]
        rfl
      refine iff_of_true ?_ ?_
      · have short := copying.covers.short
        have missing := copying.missing
        rw [effect.2.1 empty]
        rw [empty] at ends
        simp only [List.length_nil] at ends
        omega
      · intro hole
        rcases hole.2 with ⟨block, impossible, _⟩
        cases impossible
  | some last =>
      rw [effect.2.2 last found]
      simp

theorem onRpcReplied_outcome {session : CopySession} {throttle granted : Option Nat}
    {reader after : LocalDirReader} {sizes : List Nat} {writes closes : Bool}
    {count : Nat} {data : Bytes} {eof : Bool}
    (copying : Copying service session) (positive : 0 < count) (small : count < 2 ^ 32)
    (sent : session.sendNextRpc options throttle =
      ({ session with offset := session.offset + session.count, count := count },
        some
          { filename := session.filename
            count := count
            offset := session.offset + session.count
            readPartly := options.allowReadPartly }))
    (served : service.snapshot.readFile reader granted
        { filename := session.filename
          count := count
          offset := session.offset + session.count
          readPartly := options.allowReadPartly } = (.ok (data, eof), after)) :
    Outcome service options session
      (.rpc throttle (.served reader granted sizes writes) closes) := by
  have reads := service.snapshot.readFile_reads served copying.covers.within copying.whole
    positive small
  have unfinished : ¬ session.finished := by
    rw [copying.unfinished]
    exact Bool.false_ne_true
  have result : session.attempt service options
      (.rpc throttle (.served reader granted sizes writes) closes) =
      ({ session with offset := session.offset + session.count, count := count } :
        CopySession).onRpcReplied options
          { eof := eof
            readSize := data.length
            attachment := service.attachment (session.offset + session.count)
              (chop sizes data) } writes closes := by
    simp only [attempt, sent, FileService.getFile, if_neg (Nat.ne_of_gt positive), served,
      onRpcReturned, if_neg unfinished]
  have tail : session.tailBlock service options
      (.rpc throttle (.served reader granted sizes writes) closes) =
      if eof then (chop sizes data).getLast? else none := by
    simp only [tailBlock, sent, served]
    cases eof with
    | true => rfl
    | false => rfl
  by_cases fault : session.destination = .file ∧ ¬ writes
  · have failed : session.attempt service options
        (.rpc throttle (.served reader granted sizes writes) closes) = _ :=
      result.trans (if_pos fault)
    apply Outcome.failed
    · rw [failed]
      rfl
    · rw [failed]
      exact (onFinished_failed closes (by change EIO ≠ 0; decide)).2
  · have written := result.trans (if_neg fault)
    cases eof with
    | true =>
        apply Outcome.ended
        · rw [written]
          rfl
        · rw [written]
          unfold EndsInHole
          rw [tail]
          exact ended_exact copying sizes reads.next reads.buffer (reads.ends.mp rfl)
    | false =>
        have position := next_count reads rfl
        have effect := putAll_attachment session.destination service sizes
          copying.covers reads.next (service.snapshot.source_fits session.filename)
          reads.buffer
        have inside : session.offset + session.count + data.length <
            (session.source service).length := by
          have bound := effect.1.within
          have notAll : ¬ session.offset + session.count + data.length =
              (session.source service).length := fun all =>
            Bool.false_ne_true (reads.ends.mpr all)
          exact Nat.lt_of_le_of_ne bound notAll
        apply Outcome.goesOn
        · rw [written]
          refine ⟨?_, Or.inr ?_, ?_, copying.unfinished, copying.clean⟩
          · change Covers _ _ (session.offset + session.count + ite _ _ _)
            rw [position]
            exact effect.1
          · change session.offset + session.count + ite _ _ _ < _
            rw [position]
            exact inside
          · intro metaFile
            unfold SnapshotFileReader.readFile at served
            rw [if_pos (show session.filename = _ from metaFile)] at served
            cases served
        · rw [written]
          rfl
        · intro hole
          rcases hole.2 with ⟨block, found, _⟩
          rw [tail] at found
          cases found

theorem attempt_outcome (options : CopyOptions) {session : CopySession}
    (copying : Copying service session) (next : Attempt) : Outcome service options session next := by
  have unfinished : ¬ session.finished := by
    rw [copying.unfinished]
    exact Bool.false_ne_true
  cases next with
  | cancel closes =>
      have failed := cancel_failed closes copying
      exact .failed failed.1 failed.2
  | rpc throttle outcome closes =>
      rcases sendNextRpc_cases options throttle copying with held | asked
      · have result : session.attempt service options (.rpc throttle outcome closes) =
            (session.sendNextRpc options throttle).1 := by
          cases sent : session.sendNextRpc options throttle with
          | mk after request =>
              rw [sent] at held
              have none : request = none := held.1
              simp only [attempt, sent, none]
        refine .goesOn ?_ ?_ ?_
        · rw [result]
          exact held.2.1
        · rw [result]
          exact held.2.2
        · intro hole
          rcases hole.2 with ⟨block, found, _⟩
          cases outcome with
          | failed code nonzero => cases found
          | served reader granted sizes writes =>
              simp only [tailBlock, held.1] at found
              cases found
      · rcases asked with ⟨count, positive, small, sent⟩
        have resent : ∀ code : Int, code ≠ 0 →
            session.attempt service options (.rpc throttle outcome closes) =
              ({ session with offset := session.offset + session.count, count := count } :
                CopySession).onRpcFailed options code closes →
            ¬ session.EndsInHole service options (.rpc throttle outcome closes) →
            Outcome service options session (.rpc throttle outcome closes) := by
          intro code nonzero result noHole
          have cases_ := onRpcFailed_cases options
            { session with offset := session.offset + session.count, count := count }
            closes nonzero
            ⟨copying.covers, copying.missing, copying.whole, copying.unfinished,
              copying.clean⟩
          dsimp only at cases_
          rw [← result] at cases_
          cases cases_ with
          | inl failed => exact .failed failed.1 failed.2
          | inr again => exact .goesOn again.1 again.2 noHole
        cases outcome with
        | failed code nonzero =>
            refine resent code nonzero ?_ ?_
            · simp only [attempt, sent, onRpcReturned, if_neg unfinished]
            · intro hole
              rcases hole.2 with ⟨block, found, _⟩
              cases found
        | served reader granted sizes writes =>
            cases served : service.snapshot.readFile reader granted
                { filename := session.filename
                  count := count
                  offset := session.offset + session.count
                  readPartly := options.allowReadPartly } with
            | mk answer after =>
                cases answer with
                | ok pair => exact onRpcReplied_outcome copying positive small sent served
                | error code =>
                    refine resent code (service.snapshot.readFile_error served) ?_ ?_
                    · simp only [attempt, sent, FileService.getFile,
                        if_neg (Nat.ne_of_gt positive), served, onRpcReturned,
                        if_neg unfinished]
                    · intro hole
                      rcases hole.2 with ⟨block, found, _⟩
                      simp only [tailBlock, sent, served] at found
                      cases found

theorem attempt_finished (service : FileService) (options : CopyOptions)
    {session : CopySession} (finished : session.finished)
    (next : Attempt) :
    (session.attempt service options next).finished ∧
      (session.attempt service options next).status = session.status ∧
      (session.attempt service options next).written = session.written := by
  cases next with
  | cancel closes =>
      have kept : session.attempt service options (.cancel closes) = session :=
        if_pos finished
      rw [kept]
      exact ⟨finished, rfl, rfl⟩
  | rpc throttle outcome closes =>
      have sent : session.sendNextRpc options throttle =
          ({ session with offset := session.offset + session.count }, none) :=
        if_pos finished
      have kept : session.attempt service options (.rpc throttle outcome closes) =
          { session with offset := session.offset + session.count } := by
        simp only [attempt, sent]
      rw [kept]
      exact ⟨finished, rfl, rfl⟩

theorem run_finished (service : FileService) (options : CopyOptions)
    (attempts : List Attempt) {session : CopySession}
    (finished : session.finished) :
    let after := attempts.foldl (attempt service options) session
    after.status = session.status ∧ after.written = session.written ∧
      HoleFree service options session attempts := by
  induction attempts generalizing session with
  | nil => exact ⟨rfl, rfl, trivial⟩
  | cons next rest ih =>
      have step := attempt_finished service options finished next
      have later := ih step.1
      refine ⟨later.1.trans step.2.1, later.2.1.trans step.2.2, ?_, later.2.2⟩
      intro unfinished
      rw [finished] at unfinished
      cases unfinished

theorem run_exact (attempts : List Attempt) {session : CopySession}
    (copying : Copying service session) :
    let after := attempts.foldl (attempt service options) session
    after.finished → after.status = 0 →
      (after.written = session.source service ↔
        HoleFree service options session attempts) := by
  induction attempts generalizing session with
  | nil =>
      intro after finished
      rw [show after = session from rfl, copying.unfinished] at finished
      cases finished
  | cons next rest ih =>
      intro after finished status
      have unfolded : HoleFree service options session (next :: rest) ↔
          ¬ session.EndsInHole service options next ∧
            HoleFree service options (session.attempt service options next) rest :=
        and_congr_left' ⟨fun checked => checked copying.unfinished, fun noHole _ => noHole⟩
      rw [unfolded]
      cases attempt_outcome options copying next with
      | failed ended failure =>
          have settled := run_finished service options rest ended
          exact absurd (settled.1.symm.trans status) failure
      | goesOn moves same noHole =>
          have later := ih moves finished status
          have source : (session.attempt service options next).source service =
              session.source service := by
            unfold CopySession.source
            rw [same]
          rw [source] at later
          exact later.trans (and_iff_right noHole).symm
      | ended ended exact_ =>
          have settled := run_finished service options rest ended
          change (rest.foldl (attempt service options)
            (session.attempt service options next)).written = _ ↔ _
          rw [settled.2.1, exact_]
          exact (and_iff_left settled.2.2).symm

end CopySession

namespace FileCopy

theorem start_copying (copy : FileCopy) :
    CopySession.Copying copy.service copy.start where
  covers := Covers.start _
  missing := Or.inl rfl
  whole _ := rfl
  unfinished := rfl
  clean := rfl

def HoleFree (copy : FileCopy) : Prop :=
  CopySession.HoleFree copy.service copy.options copy.start copy.attempts

/-- A session that ends with success leaves exactly the source, in a file or in a
buffer, unless the block that ends it was skipped as a hole. -/
theorem file_copy_exact (copy : FileCopy) (finished : copy.result.finished)
    (success : copy.result.status = 0) :
    copy.result.written = copy.source ↔ copy.HoleFree :=
  CopySession.run_exact copy.attempts copy.start_copying finished success

/-- Two zeros are skipped, a request is lost, one is held back, the last byte
comes with the third reply. -/
def sparseCopy : FileCopy where
  service :=
    { fileCheckHole := true
      snapshot := { listed := ["f"], files := [("f", [0, 0, 3])] } }
  options := { maxByteCountPerRpc := 2 }
  filename := "f"
  attempts :=
    [.rpc none (.served {} none [] true) true,
     .rpc none (.failed 110 (by decide)) true,
     .rpc (some 0) (.failed 110 (by decide)) true,
     .rpc (some 1) (.served { currentFilename := "f", eofReached := false } none [] true) true]

theorem file_copy_exact_sparse :
    (sparseCopy.result.finished ∧ sparseCopy.result.status = 0) ∧
      (sparseCopy.result.written = sparseCopy.source ↔ sparseCopy.HoleFree) :=
  ⟨by decide, file_copy_exact sparseCopy (by decide) (by decide)⟩

def zeroCopy : FileCopy where
  service :=
    { fileCheckHole := true
      snapshot := { listed := ["f"], files := [("f", [0])] } }
  filename := "f"
  attempts := [.rpc none (.served {} none [] true) true]

theorem file_copy_loses_zeros :
    ¬ ∀ copy : FileCopy, copy.result.finished → copy.result.status = 0 →
      copy.result.written = copy.source := by
  intro claimed
  exact absurd (claimed zeroCopy (by decide) (by decide)) (by decide)

end FileCopy

end QuorumKit
