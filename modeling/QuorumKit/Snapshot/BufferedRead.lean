/-
Buffered sequential reads, `BufferedSequentialReadFileAdaptor` of
`braft/file_system_adaptor.cpp`.

The adaptor keeps a window of the file that slides forward and is extended on
demand.  Zeros at the end of what `do_read` delivers may be left out, so the
window can be longer than the bytes really held.  The position of the device
under `do_read` is kept beside the adaptor.
-/

import Mathlib.Data.List.Infix
import QuorumKit.Errno
import QuorumKit.Library.SparseFile
import QuorumKit.Library.TransitionSystem

namespace QuorumKit

open Library (Bytes padTo Covers)

structure BufferedReadFile where
  buffer : Bytes := []
  bufferOffset : Nat := 0
  bufferSize : Nat := 0
  reachFileEof : Bool := false
  error : Int := 0
deriving DecidableEq

/-- What `do_read` does: a failure with its `errno`, or bytes and their count. -/
inductive DoRead where
  | failed (errno : Int)
  | delivered (data : Bytes) (count : Nat)
deriving DecidableEq

namespace BufferedReadFile

variable (adaptor : BufferedReadFile)

def inWindow (offset : Nat) : Prop :=
  adaptor.bufferOffset ≤ offset ∧ offset ≤ adaptor.bufferOffset + adaptor.bufferSize

instance (offset : Nat) : Decidable (adaptor.inWindow offset) :=
  inferInstanceAs (Decidable (_ ∧ _))

def slide (offset : Nat) : BufferedReadFile :=
  if adaptor.bufferOffset < offset then
    { adaptor with
      buffer := adaptor.buffer.drop
        (min (offset - adaptor.bufferOffset) adaptor.buffer.length)
      bufferSize := adaptor.bufferSize - (offset - adaptor.bufferOffset)
      bufferOffset := offset }
  else adaptor

/-- How many bytes are missing at the end of the window; `end_offset` is signed. -/
def needCount (offset size : Nat) : Nat :=
  let endOffset := (BitVec.ofNat 64 (offset + size)).toInt
  (endOffset - (adaptor.bufferOffset + adaptor.bufferSize)).toNat

def extend (need : Nat) (data : Bytes) (count : Nat) : BufferedReadFile :=
  { adaptor with
    reachFileEof := count < need
    buffer :=
      if data ≠ [] then (padTo adaptor.buffer adaptor.bufferSize).take adaptor.bufferSize ++ data
      else adaptor.buffer
    bufferSize := adaptor.bufferSize + count }

def serve (size : Nat) : Int × Bytes :=
  let nread := min adaptor.bufferSize size
  (nread, adaptor.buffer.take (min adaptor.buffer.length nread))

/-- Whether `do_read` is called. -/
def refills (offset size : Nat) : Bool :=
  adaptor.error = 0 ∧ adaptor.inWindow offset ∧ ¬ adaptor.reachFileEof ∧
    0 < (adaptor.slide offset).needCount offset size

def read (offset size : Nat) (doRead : DoRead) : (Int × Bytes) × BufferedReadFile :=
  if adaptor.error ≠ 0 then ((-1, []), adaptor)
  else if ¬ adaptor.inWindow offset then ((-1, []), adaptor)
  else
    let adaptor := adaptor.slide offset
    let need := adaptor.needCount offset size
    if ¬ adaptor.reachFileEof ∧ 0 < need then
      match doRead with
      | .failed errno =>
          ((-1, []), { adaptor with error := if errno ≠ 0 then errno else EIO })
      | .delivered data count =>
          let adaptor := adaptor.extend need data count
          (adaptor.serve size, adaptor)
    else (adaptor.serve size, adaptor)

def directRead (file : Bytes) (offset size : Nat) : Bytes := (file.drop offset).take size

/-- The next bytes of the file and their true count: fewer than were asked for at
the end of the file only, and zeros left out at the end only. -/
structure Delivers (file : Bytes) (position need : Nat) (data : Bytes) (count : Nat) : Prop where
  within : position + count ≤ file.length
  enough : need ≤ count ∨ position + count = file.length
  short : data.length ≤ count
  bytes : padTo data count = (file.drop position).take count

end BufferedReadFile

structure BufferedReads where
  adaptor : BufferedReadFile := {}
  position : Nat := 0
deriving DecidableEq

structure BufferedReadCall where
  offset : Nat
  size : Nat
  doRead : DoRead

namespace BufferedReads

open BufferedReadFile

variable (file : Bytes)

/-- The range is one of `off_t`, and `do_read` delivers when it is called. -/
def allowed (call : BufferedReadCall) (state : BufferedReads) : Prop :=
  call.offset + call.size < 2 ^ 63 ∧
    (state.adaptor.refills call.offset call.size = true →
      ∃ data count, call.doRead = .delivered data count ∧
        Delivers file state.position
          ((state.adaptor.slide call.offset).needCount call.offset call.size) data count)

def step (call : BufferedReadCall) (state : BufferedReads) : Option BufferedReads :=
  some
    { adaptor := (state.adaptor.read call.offset call.size call.doRead).2
      position :=
        match call.doRead with
        | .failed _ => state.position
        | .delivered _ count =>
            if state.adaptor.refills call.offset call.size then state.position + count
            else state.position }

def system : TransitionSystem BufferedReads BufferedReadCall where
  init state := state = {}
  allowed := allowed file
  step := step

end BufferedReads

namespace BufferedReadFile

/-- The window is the part of the file between its offset and the position of the
device, zeros at its end left out. -/
structure Window (file : Bytes) (adaptor : BufferedReadFile) (position : Nat) : Prop where
  healthy : adaptor.error = 0
  behind : adaptor.bufferOffset + adaptor.bufferSize = position
  inside : adaptor.bufferOffset ≤ file.length
  covers : Covers adaptor.buffer (file.drop adaptor.bufferOffset) adaptor.bufferSize
  eof : adaptor.reachFileEof = true → position = file.length

variable {file : Bytes} {adaptor : BufferedReadFile} {position : Nat}

theorem Window.start (file : Bytes) : Window file {} 0 where
  healthy := rfl
  behind := rfl
  inside := Nat.zero_le _
  covers := Covers.start _
  eof := fun impossible => absurd impossible (by decide)

theorem Window.slide (window : Window file adaptor position) {offset : Nat}
    (inWindow : adaptor.inWindow offset) :
    Window file (adaptor.slide offset) position ∧ (adaptor.slide offset).bufferOffset = offset ∧
      (adaptor.slide offset).reachFileEof = adaptor.reachFileEof := by
  have behind := window.behind
  have within := window.covers.within
  rw [List.length_drop] at within
  unfold BufferedReadFile.slide
  by_cases moves : adaptor.bufferOffset < offset
  · rw [if_pos moves]
    have inside : offset - adaptor.bufferOffset ≤ adaptor.bufferSize := by
      have upper := inWindow.2
      omega
    have dropped := window.covers.drop inside
    have source : (file.drop adaptor.bufferOffset).drop (offset - adaptor.bufferOffset) =
        file.drop offset := by
      rw [List.drop_drop]
      congr 1
      omega
    have popped : adaptor.buffer.drop (min (offset - adaptor.bufferOffset)
        adaptor.buffer.length) = adaptor.buffer.drop (offset - adaptor.bufferOffset) := by
      by_cases short : adaptor.buffer.length ≤ offset - adaptor.bufferOffset
      · rw [Nat.min_eq_right short, List.drop_length, List.drop_eq_nil_of_le short]
      · rw [Nat.min_eq_left (by omega)]
    refine ⟨⟨window.healthy, ?_, ?_, ?_, window.eof⟩, rfl, rfl⟩
    · dsimp only
      omega
    · have upper := inWindow.2
      have inFile := window.inside
      dsimp only
      omega
    · dsimp only
      rwa [popped, ← source]
  · have same : adaptor.bufferOffset = offset := by
      have lower := inWindow.1
      omega
    rw [if_neg moves]
    exact ⟨window, same, rfl⟩

theorem Window.extend (window : Window file adaptor position) {need : Nat} {data : Bytes}
    {count : Nat} (delivers : Delivers file position need data count) :
    Window file (adaptor.extend need data count) (position + count) where
  healthy := window.healthy
  behind := by
    have behind := window.behind
    change adaptor.bufferOffset + (adaptor.bufferSize + count) = _
    omega
  inside := window.inside
  covers := by
    have source : (file.drop adaptor.bufferOffset).drop adaptor.bufferSize =
        file.drop position := by
      rw [List.drop_drop, window.behind]
    have next : padTo data count <+: (file.drop adaptor.bufferOffset).drop adaptor.bufferSize := by
      rw [source, delivers.bytes]
      exact List.take_prefix _ _
    have zeros : List.replicate (count - data.length) 0 <+:
        (file.drop adaptor.bufferOffset).drop (adaptor.bufferSize + data.length) := by
      rw [← List.drop_drop]
      have rest := List.IsPrefix.drop next data.length
      rwa [padTo, List.drop_left] at rest
    have whole : adaptor.bufferSize + data.length + (count - data.length) =
        adaptor.bufferSize + count := by
      have short := delivers.short
      omega
    have piece : data <+: (file.drop adaptor.bufferOffset).drop adaptor.bufferSize :=
      (List.prefix_append data _).trans next
    unfold BufferedReadFile.extend
    dsimp only
    by_cases empty : data = []
    · subst empty
      rw [if_neg (not_not.mpr rfl)]
      exact window.covers.skip zeros
    · rw [if_pos empty, List.take_of_length_le
        (Nat.le_of_eq (Library.padTo_length window.covers.short)), ← whole]
      exact (window.covers.write piece).skip zeros
  eof := by
    intro reached
    have fewer : count < need := of_decide_eq_true reached
    rcases delivers.enough with enough | ends
    · omega
    · exact ends

theorem Window.serve (window : Window file adaptor position) {size : Nat}
    (reaches : size ≤ adaptor.bufferSize ∨ position = file.length) :
    (adaptor.serve size).1 = (directRead file adaptor.bufferOffset size).length ∧
      padTo (adaptor.serve size).2 (directRead file adaptor.bufferOffset size).length =
        directRead file adaptor.bufferOffset size := by
  have within := window.covers.within
  have behind := window.behind
  rw [List.length_drop] at within
  have length : (directRead file adaptor.bufferOffset size).length =
      min adaptor.bufferSize size := by
    rw [directRead, List.length_take, List.length_drop]
    omega
  have direct : directRead file adaptor.bufferOffset size =
      (file.drop adaptor.bufferOffset).take (min adaptor.bufferSize size) := by
    rcases Nat.le_total size adaptor.bufferSize with covered | beyond
    · rw [Nat.min_eq_right covered, directRead]
    · rw [Nat.min_eq_left beyond, directRead]
      rcases reaches with covered | ends
      · rw [Nat.le_antisymm covered beyond]
      · have whole : (file.drop adaptor.bufferOffset).length ≤ adaptor.bufferSize := by
          rw [List.length_drop]
          omega
        rw [List.take_of_length_le whole, List.take_of_length_le (Nat.le_trans whole beyond)]
  have bytes : (adaptor.serve size).2 = adaptor.buffer.take (min adaptor.bufferSize size) := by
    unfold BufferedReadFile.serve
    dsimp only
    by_cases short : adaptor.buffer.length ≤ min adaptor.bufferSize size
    · rw [Nat.min_eq_left short, List.take_length, List.take_of_length_le short]
    · rw [Nat.min_eq_right (by omega)]
  refine ⟨?_, ?_⟩
  · rw [length]
    rfl
  · rw [length, bytes, direct]
    exact window.covers.take (Nat.min_le_left _ _)

theorem needCount_eq (adaptor : BufferedReadFile) {offset size : Nat} (fits : offset + size < 2 ^ 63) :
    adaptor.needCount offset size =
      offset + size - (adaptor.bufferOffset + adaptor.bufferSize) := by
  have signed : (BitVec.ofNat 64 (offset + size)).toInt = ((offset + size : Nat) : Int) := by
    rw [BitVec.toInt_ofNat', Int.bmod_def]
    split_ifs <;> omega
  rw [needCount, signed]
  omega

/-- A call that `do_read` answers as promised keeps the window, and inside the
window it returns what the file itself would. -/
theorem Window.read (window : Window file adaptor position) {call : BufferedReadCall}
    (allowed : BufferedReads.allowed file call ⟨adaptor, position⟩) :
    (∃ after, BufferedReads.step call ⟨adaptor, position⟩ = some after ∧
        Window file after.adaptor after.position) ∧
      (adaptor.inWindow call.offset →
        let returned := (adaptor.read call.offset call.size call.doRead).1
        let direct := directRead file call.offset call.size
        returned.1 = direct.length ∧ padTo returned.2 direct.length = direct) := by
  rcases allowed with ⟨fits, delivers⟩
  have noError : ¬ adaptor.error ≠ 0 := not_not.mpr window.healthy
  by_cases inWindow : adaptor.inWindow call.offset
  · rcases window.slide inWindow with ⟨slid, atOffset, eof⟩
    have slidBehind := slid.behind
    have needIs := needCount_eq (adaptor.slide call.offset) fits
    by_cases needed : ¬ (adaptor.slide call.offset).reachFileEof = true ∧
        0 < (adaptor.slide call.offset).needCount call.offset call.size
    · have refills : adaptor.refills call.offset call.size = true :=
        decide_eq_true ⟨window.healthy, inWindow, eof ▸ needed.1, needed.2⟩
      rcases delivers refills with ⟨data, count, answer, delivered⟩
      have extended := slid.extend delivered
      have read : adaptor.read call.offset call.size call.doRead =
          (((adaptor.slide call.offset).extend
              ((adaptor.slide call.offset).needCount call.offset call.size) data count).serve
              call.size,
            (adaptor.slide call.offset).extend
              ((adaptor.slide call.offset).needCount call.offset call.size) data count) := by
        unfold BufferedReadFile.read
        rw [if_neg noError, if_neg (not_not.mpr inWindow), answer]
        dsimp only
        rw [if_pos needed]
      have reaches : call.size ≤ ((adaptor.slide call.offset).extend
          ((adaptor.slide call.offset).needCount call.offset call.size) data count).bufferSize ∨
          position + count = file.length := by
        rcases delivered.enough with enough | ends
        · left
          have enough : (adaptor.slide call.offset).needCount call.offset call.size ≤ count :=
            enough
          change call.size ≤ (adaptor.slide call.offset).bufferSize + count
          omega
        · exact Or.inr ends
      have served := extended.serve reaches
      have offset : ((adaptor.slide call.offset).extend
          ((adaptor.slide call.offset).needCount call.offset call.size) data count).bufferOffset =
          call.offset := atOffset
      rw [offset] at served
      refine ⟨⟨_, rfl, ?_⟩, ?_⟩
      · simp only [answer, refills, if_true]
        rw [← answer, read]
        exact extended
      · intro _
        rw [read]
        exact served
    · have noRefill : adaptor.refills call.offset call.size = false := by
        apply decide_eq_false
        rintro ⟨_, _, notEof, positive⟩
        exact needed ⟨eof.symm ▸ notEof, positive⟩
      have read : adaptor.read call.offset call.size call.doRead =
          ((adaptor.slide call.offset).serve call.size, adaptor.slide call.offset) := by
        unfold BufferedReadFile.read
        rw [if_neg noError, if_neg (not_not.mpr inWindow)]
        dsimp only
        rw [if_neg needed]
      have reaches : call.size ≤ (adaptor.slide call.offset).bufferSize ∨
          position = file.length := by
        rcases not_and_or.mp needed with ended | enough
        · exact Or.inr (slid.eof (not_not.mp ended))
        · left
          omega
      have served := slid.serve reaches
      rw [atOffset] at served
      refine ⟨⟨_, rfl, ?_⟩, ?_⟩
      · simp only [noRefill, read]
        cases call.doRead with
        | failed errno => exact slid
        | delivered data count => exact slid
      · intro _
        rw [read]
        exact served
  · have noRefill : adaptor.refills call.offset call.size = false := by
      apply decide_eq_false
      rintro ⟨_, within, _⟩
      exact inWindow within
    have read : adaptor.read call.offset call.size call.doRead = ((-1, []), adaptor) := by
      unfold BufferedReadFile.read
      rw [if_neg noError, if_pos inWindow]
    refine ⟨⟨_, rfl, ?_⟩, fun within => absurd within inWindow⟩
    simp only [noRefill, read]
    cases call.doRead with
    | failed errno => exact window
    | delivered data count => exact window

end BufferedReadFile

namespace BufferedReads

open BufferedReadFile

variable {file : Bytes}

theorem window_run {state : BufferedReads} (reached : (system file).Reachable state) :
    Window file state.adaptor state.position := by
  apply reached.invariant (fun state => Window file state.adaptor state.position)
  · intro start initial
    rw [initial]
    exact Window.start file
  · intro call before after window allowed stepped
    rcases (window.read allowed).1 with ⟨next, same, kept⟩
    have result : next = after := Option.some.inj (same.symm.trans stepped)
    rwa [← result]

/-- After any sequence of reads, a read inside the window or at its end returns
the length of a direct read and, filled up with zeros, its bytes. -/
theorem read_direct {state : BufferedReads} (reached : (system file).Reachable state)
    {call : BufferedReadCall} (allowed : (system file).allowed call state)
    (inWindow : state.adaptor.inWindow call.offset) :
    let returned := (state.adaptor.read call.offset call.size call.doRead).1
    let direct := directRead file call.offset call.size
    returned.1 = direct.length ∧ padTo returned.2 direct.length = direct :=
  ((window_run reached).read allowed).2 inWindow

/-- A file of three bytes and a hole, read into the hole and then to its end. -/
theorem read_direct_hole :
    let file : Bytes := [1, 2, 3, 0, 0, 0, 0, 0]
    let first : BufferedReadCall := ⟨0, 5, .delivered [1, 2, 3] 5⟩
    let again : BufferedReadCall := ⟨2, 10, .delivered [] 3⟩
    let state : BufferedReads := ⟨⟨[1, 2, 3], 0, 5, false, 0⟩, 5⟩
    step first {} = some state ∧
      (state.adaptor.read again.offset again.size again.doRead).1.1 =
        (directRead file again.offset again.size).length := by
  intro file first again state
  have delivered : Delivers file 0 5 [1, 2, 3] 5 :=
    ⟨by decide, Or.inl (by decide), by decide, rfl⟩
  have allowed : (system file).allowed first {} :=
    ⟨by decide, fun _ => ⟨_, _, rfl, delivered⟩⟩
  have reached : (system file).Reachable state :=
    (TransitionSystem.Reachable.start rfl).next allowed rfl
  have rest : Delivers file 5 7 [] 3 := ⟨by decide, Or.inr (by decide), by decide, rfl⟩
  have allowedAgain : (system file).allowed again state :=
    ⟨by decide, fun _ => ⟨_, _, rfl, rest⟩⟩
  exact ⟨rfl, (read_direct reached allowedAgain (by decide)).1⟩

end BufferedReads
end QuorumKit
