/-
The lock of `LocalDirReader`, `braft/file_reader.cpp`.

A read takes the mark `_is_reading` under the lock, reads outside it and gives
the mark back.  Opening, reading and sizing may fail or fall short at every
call; a read through a null file is a step that the process does not survive.
-/

import QuorumKit.Library.TransitionSystem
import QuorumKit.Snapshot.FileService

namespace QuorumKit
namespace FileReader

open Library (Bytes)

structure LocalDirReader where
  currentFile : Option String := none
  currentFilename : String := ""
  isReading : Bool := false
  eofReached : Bool := true
deriving DecidableEq

structure ReadCall where
  filename : String
  offset : Int
  maxCount : Nat
deriving DecidableEq

namespace LocalDirReader

def closeFile (reader : LocalDirReader) : LocalDirReader :=
  match reader.currentFile with
  | some _ => { reader with currentFile := none, currentFilename := "" }
  | none => reader

/-- The part under the first lock; `openError` is the failure of `open`, if any. -/
def start (reader : LocalDirReader) (call : ReadCall) (openError : Option Int) :
    Except Int Unit × LocalDirReader :=
  if reader.isReading then (.error EAGAIN, reader)
  else if call.filename ≠ reader.currentFilename then
    if ¬ reader.eofReached ∨ call.offset ≠ 0 then (.error EINVAL, reader)
    else
      match openError with
      | some code => (.error code, reader.closeFile)
      | none =>
          (.ok (),
            { currentFile := some call.filename
              currentFilename := call.filename
              isReading := true
              eofReached := false })
  else (.ok (), { reader with isReading := true })

def release (reader : LocalDirReader) (eof : Bool) : LocalDirReader :=
  { reader with isReading := false, eofReached := eof }

/-- What the adaptor reads; `limit` bounds a short read and is `none` when the
read fails. -/
def readAt (file : Bytes) (call : ReadCall) (limit : Option Nat) : Option Bytes :=
  match limit with
  | none => none
  | some limit =>
      if call.offset < 0 then none
      else some ((file.drop call.offset.toNat).take (min limit call.maxCount))

/-- The part outside the lock and the second lock.  The error of `size` returns
before the mark is given back. -/
def finish (reader : LocalDirReader) (file : Bytes) (call : ReadCall) (limit : Option Nat)
    (size : Int) : Except Int (Bytes × Bool) × LocalDirReader :=
  match readAt file call limit with
  | none => (.error EIO, { reader with isReading := false })
  | some data =>
      if data.length < call.maxCount then (.ok (data, true), reader.release true)
      else if size < 0 then (.error EIO, reader)
      else
        let eof : Bool := size = call.offset + call.maxCount
        (.ok (data, eof), reader.release eof)

end LocalDirReader

structure Readers where
  reader : LocalDirReader := {}
  calls : List ReadCall := []

inductive ReaderAction where
  | start (call : ReadCall) (openError : Option Int)
  | finish (call : ReadCall) (limit : Option Nat) (size : Int)

namespace Readers

variable (files : String → Bytes)

def step : ReaderAction → Readers → Option Readers
  | .start call openError, state =>
      match state.reader.start call openError with
      | (.error _, reader) => some { state with reader := reader }
      | (.ok _, reader) => some { reader := reader, calls := call :: state.calls }
  | .finish call limit size, state =>
      match state.reader.currentFile with
      | none => none
      | some name =>
          some
            { reader := (state.reader.finish (files name) call limit size).2
              calls := state.calls.erase call }

def allowed : ReaderAction → Readers → Prop
  | .start _ _, _ => True
  | .finish call _ _, state => call ∈ state.calls

def system : TransitionSystem Readers ReaderAction where
  init state := state = {}
  allowed := allowed
  step := step files

/-- The reader is locked only by a call that is going to return, every such call
reads its own file, and without one the current file is served at any offset. -/
structure NeverLocked (state : Readers) : Prop where
  single : state.calls.length ≤ 1
  locked : state.reader.isReading = true ↔ state.calls ≠ []
  own : ∀ call ∈ state.calls, state.reader.currentFile = some call.filename
  served : state.calls = [] → ∀ call openError,
    state.reader.currentFile = some call.filename →
      (state.reader.start call openError).1 = .ok ()

/-- Neither of the two slips: a file without a name is not read while no file is
open, and the size of the file is known where a read fills its buffer. -/
def Regular : ReaderAction → Readers → Prop
  | .start call _, state =>
      state.reader.isReading = false → call.filename = state.reader.currentFilename →
        state.reader.currentFile ≠ none
  | .finish call limit size, _ =>
      ∀ data, LocalDirReader.readAt (files call.filename) call limit = some data →
        data.length < call.maxCount ∨ 0 ≤ size

def Named (reader : LocalDirReader) : Prop :=
  reader.currentFilename = reader.currentFile.getD ""

theorem named_closeFile {reader : LocalDirReader} (named : Named reader) :
    Named reader.closeFile := by
  unfold LocalDirReader.closeFile
  cases current : reader.currentFile with
  | none => exact named
  | some name => rfl

@[simp] theorem closeFile_isReading (reader : LocalDirReader) :
    reader.closeFile.isReading = reader.isReading := by
  unfold LocalDirReader.closeFile
  cases reader.currentFile with
  | none => rfl
  | some name => rfl

theorem start_served {reader : LocalDirReader} (named : Named reader)
    (idle : reader.isReading = false) {call : ReadCall}
    (current : reader.currentFile = some call.filename) (openError : Option Int) :
    reader.start call openError = (.ok (), { reader with isReading := true }) := by
  have same : call.filename = reader.currentFilename := by
    rw [named, current]
    rfl
  have idle : ¬ reader.isReading = true := by
    rw [idle]
    decide
  unfold LocalDirReader.start
  rw [if_neg idle, if_neg (not_not.mpr same)]

theorem neverLocked_idle {reader : LocalDirReader} (named : Named reader)
    (idle : reader.isReading = false) : NeverLocked { reader := reader, calls := [] } where
  single := Nat.zero_le 1
  locked := by
    rw [idle]
    exact iff_of_false Bool.false_ne_true (not_not.mpr rfl)
  own := fun call member => absurd member List.not_mem_nil
  served := by
    intro _ call openError current
    rw [start_served named idle current openError]

theorem neverLocked_reading {reader : LocalDirReader} {call : ReadCall}
    (marked : reader.isReading = true) (current : reader.currentFile = some call.filename) :
    NeverLocked { reader := reader, calls := [call] } where
  single := Nat.le_refl 1
  locked := iff_of_true marked (List.cons_ne_nil call [])
  own := by
    intro other member
    rw [List.mem_singleton.mp member]
    exact current
  served := fun empty => absurd empty (List.cons_ne_nil call [])

theorem calls_idle {state : Readers} (fine : NeverLocked state)
    (idle : state.reader.isReading = false) : state.calls = [] := by
  by_contra busy
  have marked := fine.locked.mpr busy
  rw [idle] at marked
  cases marked

theorem calls_of_mem {state : Readers} (fine : NeverLocked state) {call : ReadCall}
    (member : call ∈ state.calls) : state.calls = [call] := by
  have single := fine.single
  rcases state with ⟨reader, calls⟩
  cases calls with
  | nil => cases member
  | cons head rest =>
      cases rest with
      | nil => rw [List.mem_singleton.mp member]
      | cons next rest =>
          simp only [List.length_cons] at single
          omega

theorem finish_isReading {reader : LocalDirReader} (marked : reader.isReading = true)
    (file : Bytes) (call : ReadCall) (limit : Option Nat) (size : Int) :
    (reader.finish file call limit size).2.isReading = false ↔
      ∀ data, LocalDirReader.readAt file call limit = some data →
        data.length < call.maxCount ∨ 0 ≤ size := by
  unfold LocalDirReader.finish
  cases got : LocalDirReader.readAt file call limit with
  | none => simp
  | some data =>
      by_cases short : data.length < call.maxCount
      · simp [short, LocalDirReader.release]
      · by_cases unsized : size < 0
        · simp [short, unsized, marked]
        · simp [short, unsized, LocalDirReader.release, Int.not_lt.mp unsized]

theorem finish_file (reader : LocalDirReader) (file : Bytes) (call : ReadCall)
    (limit : Option Nat) (size : Int) :
    (reader.finish file call limit size).2.currentFile = reader.currentFile ∧
      (reader.finish file call limit size).2.currentFilename = reader.currentFilename := by
  unfold LocalDirReader.finish
  cases LocalDirReader.readAt file call limit with
  | none => exact ⟨rfl, rfl⟩
  | some data =>
      dsimp only
      split_ifs with short unsized
      · exact ⟨rfl, rfl⟩
      · exact ⟨rfl, rfl⟩
      · exact ⟨rfl, rfl⟩

theorem step_finish {state after : Readers} {call : ReadCall} {limit : Option Nat} {size : Int}
    (fine : NeverLocked state) (named : Named state.reader) (member : call ∈ state.calls)
    (stepped : step files (.finish call limit size) state = some after) :
    Named after.reader ∧ (NeverLocked after ↔ Regular files (.finish call limit size) state) := by
  have current := fine.own call member
  have only := calls_of_mem fine member
  have marked := fine.locked.mpr (List.ne_nil_of_mem member)
  simp only [step, current] at stepped
  injection stepped with stepped
  subst stepped
  have kept := finish_file state.reader (files call.filename) call limit size
  have released := finish_isReading marked (files call.filename) call limit size
  have afterNamed : Named (state.reader.finish (files call.filename) call limit size).2 := by
    rw [Named, kept.1, kept.2]
    exact named
  have noCalls : state.calls.erase call = [] := by
    rw [only]
    simp
  refine ⟨afterNamed, ?_⟩
  rw [noCalls, Regular, ← released]
  constructor
  · intro after
    cases reading : (state.reader.finish (files call.filename) call limit size).2.isReading with
    | false => rfl
    | true => exact absurd rfl (after.locked.mp reading)
  · intro idle
    exact neverLocked_idle afterNamed idle

theorem step_start {state after : Readers} {call : ReadCall} {openError : Option Int}
    (fine : NeverLocked state) (named : Named state.reader)
    (stepped : step files (.start call openError) state = some after) :
    Named after.reader ∧ (NeverLocked after ↔ Regular files (.start call openError) state) := by
  simp only [step] at stepped
  cases reading : state.reader.isReading with
  | true =>
      have refused : state.reader.start call openError = (.error EAGAIN, state.reader) := by
        unfold LocalDirReader.start
        rw [if_pos reading]
      rw [refused] at stepped
      injection stepped with stepped
      subst stepped
      refine ⟨named, iff_of_true fine ?_⟩
      intro idle
      rw [reading] at idle
      cases idle
  | false =>
      have noCalls := calls_idle fine reading
      have idle : ¬ state.reader.isReading = true := by
        rw [reading]
        decide
      have backIdle : ∀ reader : LocalDirReader, Named reader → reader.isReading = false →
          NeverLocked { state with reader := reader } := by
        intro reader readerNamed readerIdle
        rw [noCalls]
        exact neverLocked_idle readerNamed readerIdle
      unfold LocalDirReader.start at stepped
      rw [if_neg idle] at stepped
      by_cases same : call.filename = state.reader.currentFilename
      · rw [if_neg (not_not.mpr same)] at stepped
        injection stepped with stepped
        subst stepped
        refine ⟨named, ?_⟩
        cases current : state.reader.currentFile with
        | none =>
            apply iff_of_false
            · intro after
              have own := after.own call (List.mem_cons_self ..)
              cases own
            · intro regular
              exact regular reading same current
        | some name =>
            have ownName : state.reader.currentFile = some call.filename := by
              rw [same, named, current]
              rfl
            apply iff_of_true
            · rw [noCalls]
              apply neverLocked_reading rfl
              rw [← ownName, current]
            · intro _ _ missing
              rw [current] at missing
              cases missing
      · have regular : Regular files (.start call openError) state :=
          fun _ sameName => absurd sameName same
        rw [if_pos same] at stepped
        by_cases order : ¬ state.reader.eofReached = true ∨ call.offset ≠ 0
        · rw [if_pos order] at stepped
          injection stepped with stepped
          subst stepped
          exact ⟨named, iff_of_true (backIdle _ named reading) regular⟩
        · rw [if_neg order] at stepped
          cases openError with
          | some code =>
              injection stepped with stepped
              subst stepped
              have closedNamed := named_closeFile named
              have closedIdle := (closeFile_isReading state.reader).trans reading
              exact ⟨closedNamed, iff_of_true (backIdle _ closedNamed closedIdle) regular⟩
          | none =>
              injection stepped with stepped
              subst stepped
              rw [noCalls]
              exact ⟨rfl, iff_of_true (neverLocked_reading rfl rfl) regular⟩

theorem step_iff {state after : Readers} {action : ReaderAction} (fine : NeverLocked state)
    (named : Named state.reader) (allowed : (system files).allowed action state)
    (stepped : step files action state = some after) :
    Named after.reader ∧ (NeverLocked after ↔ Regular files action state) := by
  cases action with
  | start call openError => exact step_start files fine named stepped
  | finish call limit size => exact step_finish files fine named allowed stepped

theorem neverLocked_run {state : Readers}
    (reached : ((system files).restrict (Regular files)).Reachable state) :
    NeverLocked state ∧ Named state.reader := by
  apply reached.invariant (fun state => NeverLocked state ∧ Named state.reader)
  · intro start initial
    rw [initial]
    exact ⟨neverLocked_idle rfl rfl, rfl⟩
  · intro action before after holds allowed stepped
    rcases step_iff files holds.1 holds.2 allowed.1 stepped with ⟨named, exact⟩
    exact ⟨exact.mpr allowed.2, named⟩

theorem finish_bytes {reader after : LocalDirReader} {file data : Bytes} {call : ReadCall}
    {limit : Option Nat} {size : Int} {eof : Bool}
    (served : reader.finish file call limit size = (.ok (data, eof), after)) :
    0 ≤ call.offset ∧ data <+: file.drop call.offset.toNat ∧ data.length ≤ call.maxCount := by
  unfold LocalDirReader.finish at served
  cases got : LocalDirReader.readAt file call limit with
  | none =>
      rw [got] at served
      cases served
  | some found =>
      have same : found = data := by
        rw [got] at served
        dsimp only at served
        split_ifs at served
        · injection served with first second
          injection first with pair
          exact (Prod.mk.inj pair).1
        · cases served
        · injection served with first second
          injection first with pair
          exact (Prod.mk.inj pair).1
      subst same
      cases limit with
      | none => cases got
      | some limit =>
          rw [LocalDirReader.readAt] at got
          by_cases negative : call.offset < 0
          · rw [if_pos negative] at got
            cases got
          · rw [if_neg negative] at got
            injection got with got
            subst got
            refine ⟨Int.not_lt.mp negative, List.take_prefix _ _, ?_⟩
            rw [List.length_take]
            omega

/-- In runs without the two slips the reader never stays locked and serves the
bytes of the file and offset asked for; a step keeps this exactly when it is
none of the slips. -/
theorem neverLocked_iff {state : Readers}
    (reached : ((system files).restrict (Regular files)).Reachable state) :
    NeverLocked state ∧
      (∀ action after, (system files).allowed action state →
        (system files).step action state = some after →
          (NeverLocked after ↔ Regular files action state)) ∧
      ∀ call ∈ state.calls, ∀ name, state.reader.currentFile = some name →
        ∀ limit size data eof after,
          state.reader.finish (files name) call limit size = (.ok (data, eof), after) →
            0 ≤ call.offset ∧ data <+: (files call.filename).drop call.offset.toNat := by
  rcases neverLocked_run files reached with ⟨fine, named⟩
  refine ⟨fine, ?_, ?_⟩
  · intro action after allowed stepped
    exact (step_iff files fine named allowed stepped).2
  · intro call member name current limit size data eof after served
    have own := fine.own call member
    rw [current] at own
    injection own with sameName
    rw [← sameName]
    rcases finish_bytes served with ⟨positive, bytes, _⟩
    exact ⟨positive, bytes⟩

/-- A file of four bytes that is read up to its end, once with its size and once
without. -/
def fourBytes : String → Bytes := fun _ => [1, 2, 3, 4]

def wholeFile : ReadCall := { filename := "data", offset := 0, maxCount := 4 }

def openReader : LocalDirReader :=
  { currentFile := some "data", currentFilename := "data", isReading := true, eofReached := false }

theorem openReader_reached :
    ((system fourBytes).restrict (Regular fourBytes)).Reachable
      { reader := openReader, calls := [wholeFile] } := by
  have regular : ((system fourBytes).restrict (Regular fourBytes)).allowed
      (.start wholeFile none) {} :=
    ⟨trivial, fun _ other => absurd other (by decide)⟩
  exact (TransitionSystem.Reachable.start rfl).next regular rfl

/-- While a file is being read its call goes on and gets its own bytes. -/
theorem neverLocked_whileReading :
    NeverLocked { reader := openReader, calls := [wholeFile] } ∧
      [1, 2] <+: (fourBytes "data").drop 0 := by
  have fine := neverLocked_iff fourBytes openReader_reached
  refine ⟨fine.1, ?_⟩
  exact (fine.2.2 wholeFile (List.mem_cons_self ..) "data" rfl (some 2) 4 [1, 2] true
    { openReader with isReading := false, eofReached := true } rfl).2

/-- A size that cannot be read locks the reader for good. -/
theorem unsized_locks :
    ∃ state, (system fourBytes).Reachable state ∧ state.calls = [] ∧
      ¬ NeverLocked state ∧
      ∀ call openError, (state.reader.start call openError).1 = .error EAGAIN := by
  have reading : (system fourBytes).allowed (.finish wholeFile (some 4) (-1))
      { reader := openReader, calls := [wholeFile] } := List.mem_cons_self ..
  have locked : (system fourBytes).Reachable { reader := openReader, calls := [] } :=
    openReader_reached.of_restrict.next reading rfl
  refine ⟨_, locked, rfl, ?_, fun call openError => rfl⟩
  intro fine
  exact fine.locked.mp rfl rfl

end Readers

namespace LocalDirReader

def view (reader : LocalDirReader) : QuorumKit.LocalDirReader where
  isReading := reader.isReading
  currentFilename := reader.currentFilename
  eofReached := reader.eofReached

/-- One call, not interleaved, in which only a missing file fails. -/
def readFileWithMeta (reader : LocalDirReader) (files : List (String × Bytes))
    (call : ReadCall) : Except Int (Bytes × Bool) × LocalDirReader :=
  let file := (files.lookup call.filename).getD []
  let openError := if (files.lookup call.filename).isSome then none else some ENOENT
  match reader.start call openError with
  | (.error code, reader) => (.error code, reader)
  | (.ok _, reader) => reader.finish file call (some call.maxCount) file.length

theorem finish_view (reader : LocalDirReader) (file : Bytes) (filename : String)
    (offset maxCount : Nat) :
    let call : ReadCall := { filename := filename, offset := offset, maxCount := maxCount }
    let data := (file.drop offset).take maxCount
    let eof : Bool := data.length < maxCount ∨ file.length = offset + maxCount
    reader.finish file call (some maxCount) file.length =
      (.ok (data, eof), reader.release eof) := by
  intro call data eof
  have notNegative : ¬ (offset : Int) < 0 := by omega
  have got : readAt file call (some maxCount) = some data := by
    simp only [readAt, call, if_neg notNegative, Int.toNat_natCast, Nat.min_self, data]
  unfold finish
  simp only [got]
  by_cases short : data.length < maxCount
  · have ends : eof = true := decide_eq_true (Or.inl short)
    rw [if_pos short, ends]
  · have sized : ¬ (file.length : Int) < 0 := by omega
    have ends : (decide ((file.length : Int) = call.offset + call.maxCount)) = eof := by
      simp only [eof, call, short, false_or]
      exact decide_eq_decide.mpr (by omega)
    rw [if_neg short, if_neg sized, ends]

theorem readFileWithMeta_view {reader : LocalDirReader} {files : List (String × Bytes)}
    (idle : reader.isReading = false) (named : Readers.Named reader)
    (present : ∀ name, reader.currentFile = some name → (files.lookup name).isSome = true)
    {filename : String} (offset maxCount : Nat) (nonempty : filename ≠ "") :
    let call : ReadCall := { filename := filename, offset := offset, maxCount := maxCount }
    ((reader.readFileWithMeta files call).1, (reader.readFileWithMeta files call).2.view) =
      reader.view.readFileWithMeta files filename offset maxCount := by
  intro call
  have notReading : ¬ reader.isReading = true := by
    rw [idle]
    decide
  have viewIdle : ¬ reader.view.isReading = true := notReading
  have viewReading : reader.view.isReading = false := idle
  unfold readFileWithMeta start QuorumKit.LocalDirReader.readFileWithMeta
  dsimp only
  rw [if_neg notReading, if_neg viewIdle]
  by_cases same : filename = reader.currentFilename
  · have current : reader.currentFile = some filename := by
      rw [Readers.Named, ← same] at named
      cases open_ : reader.currentFile with
      | none =>
          rw [open_] at named
          exact absurd named nonempty
      | some name =>
          rw [open_] at named
          exact congrArg some named.symm
    have inOrder : ¬ (filename ≠ reader.view.currentFilename ∧
        (¬ reader.view.eofReached = true ∨ offset ≠ 0)) := fun other => other.1 same
    rcases Option.isSome_iff_exists.mp (present filename current) with ⟨file, found⟩
    rw [if_neg (not_not.mpr same), if_neg inOrder]
    simp only [call, found, Option.getD_some, finish_view]
    rw [same, viewReading]
    rfl
  · rw [if_pos same]
    by_cases order : ¬ reader.eofReached = true ∨ call.offset ≠ 0
    · have outOfOrder : filename ≠ reader.view.currentFilename ∧
          (¬ reader.view.eofReached = true ∨ offset ≠ 0) := by
        refine ⟨same, order.imp_right ?_⟩
        intro away home
        exact away (congrArg Int.ofNat home)
      rw [if_pos order, if_pos outOfOrder]
    · have inOrder : ¬ (filename ≠ reader.view.currentFilename ∧
          (¬ reader.view.eofReached = true ∨ offset ≠ 0)) := by
        rintro ⟨_, eof | away⟩
        · exact order (Or.inl eof)
        · exact order (Or.inr (fun home => away (Int.ofNat.inj home)))
      rw [if_neg order, if_neg inOrder]
      cases found : files.lookup filename with
      | none =>
          have closed : reader.closeFile.view = { reader.view with currentFilename := "" } := by
            unfold closeFile
            cases current : reader.currentFile with
            | none =>
                rw [Readers.Named, current] at named
                simp only [view, named, Option.getD_none]
            | some name => rfl
          simp only [Option.isSome_none, Bool.false_eq_true, if_false, closed]
      | some file =>
          simp only [call, Option.isSome_some, if_true, Option.getD_some, finish_view]
          rw [viewReading]
          rfl

/-- The end of a file is told with its last bytes. -/
theorem readFileWithMeta_view_end :
    ((readFileWithMeta {} [("data", [1, 2, 3])] ⟨"data", 0, 3⟩).1,
      (readFileWithMeta {} [("data", [1, 2, 3])] ⟨"data", 0, 3⟩).2.view) =
      QuorumKit.LocalDirReader.readFileWithMeta {} [("data", [1, 2, 3])] "data" 0 3 := by
  have idle : ({} : LocalDirReader).isReading = false := rfl
  refine readFileWithMeta_view idle rfl ?_ 0 3 (by decide)
  intro name isCurrent
  cases isCurrent

end LocalDirReader

end FileReader
end QuorumKit
