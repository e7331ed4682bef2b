/-
A session of the remote file copier, `braft/remote_file_copier.cpp`.

A session sends one request after the other.  Each attempt says what the
throttle of the session grants, how the request ends and whether the
destination can be written and closed.  A session to a buffer is not throttled.
-/

import QuorumKit.Snapshot.FileService

namespace QuorumKit

open Library (Bytes writeAt resizeAppend)

inductive Destination where
  | file
  | ioBuf
deriving DecidableEq, Repr

def Destination.put : Destination → Bytes → Nat → Bytes → Bytes
  | .file => writeAt
  | .ioBuf => resizeAppend

def Destination.putAll (destination : Destination) (written : Bytes)
    (pieces : List (Nat × Bytes)) : Bytes :=
  pieces.foldl (fun written piece => destination.put written piece.1 piece.2) written

/-- `UINT_MAX`. -/
def uintMax : Nat := 2 ^ 32 - 1

/-- The flags and options of a session; the byte count is a positive `int32`. -/
structure CopyOptions where
  maxByteCountPerRpc : Nat := 131072
  positive : 0 < maxByteCountPerRpc := by decide
  fits : maxByteCountPerRpc < 2 ^ 31 := by decide
  allowReadPartly : Bool := true
  maxRetry : Int := 3

structure CopySession where
  destination : Destination
  filename : String
  offset : Nat := 0
  count : Nat := 0
  retryTimes : Nat := 0
  status : Int := 0
  finished : Bool := false
  /-- The bytes of the destination. -/
  written : Bytes := []

inductive RpcOutcome where
  | failed (code : Int) (nonzero : code ≠ 0)
  | served (reader : LocalDirReader) (throttle : Option Nat) (sizes : List Nat)
      (writes : Bool)

inductive Attempt where
  | cancel (closes : Bool)
  | rpc (throttle : Option Nat) (outcome : RpcOutcome) (closes : Bool)

namespace CopySession

def maxCount (options : CopyOptions) : Destination → Nat
  | .file => options.maxByteCountPerRpc
  | .ioBuf => uintMax

/-- What a request may ask for; only a session to a file has a throttle. -/
def newMaxCount (options : CopyOptions) (destination : Destination)
    (throttle : Option Nat) : Nat :=
  match destination with
  | .file => throttledByThroughput throttle (maxCount options .file)
  | .ioBuf => maxCount options .ioBuf

/-- `send_next_rpc`: no request when there is nothing to ask for; the timer
calls it again. -/
def sendNextRpc (options : CopyOptions) (throttle : Option Nat) (session : CopySession) :
    CopySession × Option GetFileRequest :=
  let session := { session with offset := session.offset + session.count }
  if session.finished then (session, none)
  else
    let count := newMaxCount options session.destination throttle
    if count = 0 then ({ session with count := 0 }, none)
    else
      ({ session with count := count },
        some
          { filename := session.filename
            count := count
            offset := session.offset
            readPartly := options.allowReadPartly })

/-- `on_finished`: a file is synced and closed. -/
def onFinished (session : CopySession) (closes : Bool) : CopySession :=
  { session with
    finished := true
    status :=
      if session.destination = .file ∧ ¬ closes then EIO else session.status }

/-- A failed request is sent again, up to the retry limit or a cancellation. -/
def onRpcFailed (options : CopyOptions) (code : Int) (closes : Bool)
    (session : CopySession) : CopySession :=
  let session := { session with count := 0 }
  if code = ECANCELED ∧ session.status = 0 then
    { session with status := code }.onFinished closes
  else if code = EAGAIN then session
  else if options.maxRetry ≤ session.retryTimes ∧ session.status = 0 then
    { session with retryTimes := session.retryTimes + 1, status := code }.onFinished closes
  else { session with retryTimes := session.retryTimes + 1 }

/-- A reply is written segment by segment; the count becomes the number of bytes
read, which moves the next request to the right offset. -/
def onRpcReplied (options : CopyOptions) (response : GetFileResponse)
    (writes closes : Bool) (session : CopySession) : CopySession :=
  let session :=
    { session with
      retryTimes := 0
      count :=
        if response.readSize ≠ 0 ∧ options.allowReadPartly then response.readSize
        else session.count }
  if session.destination = .file ∧ ¬ writes then
    { session with status := EIO }.onFinished closes
  else
    let session :=
      { session with
        written := session.destination.putAll session.written
          (FileSegData.segments response.attachment) }
    if response.eof then session.onFinished closes else session

/-- `on_rpc_returned`. -/
def onRpcReturned (options : CopyOptions) (result : Except Int GetFileResponse)
    (writes closes : Bool) (session : CopySession) : CopySession :=
  if session.finished then session
  else
    match result with
    | .error code => session.onRpcFailed options code closes
    | .ok response => session.onRpcReplied options response writes closes

def cancel (closes : Bool) (session : CopySession) : CopySession :=
  if session.finished then session
  else
    { session with
      status := if session.status = 0 then ECANCELED else session.status }.onFinished closes

def attempt (service : FileService) (options : CopyOptions) (session : CopySession) :
    Attempt → CopySession
  | .cancel closes => session.cancel closes
  | .rpc throttle outcome closes =>
      match session.sendNextRpc options throttle with
      | (session, none) => session
      | (session, some request) =>
          match outcome with
          | .failed code _ => session.onRpcReturned options (.error code) true closes
          | .served reader granted sizes writes =>
              session.onRpcReturned options (service.getFile reader granted sizes request).1
                writes closes

end CopySession

structure FileCopy where
  service : FileService
  options : CopyOptions := {}
  destination : Destination := .file
  filename : String
  attempts : List Attempt

namespace FileCopy

def start (copy : FileCopy) : CopySession :=
  { destination := copy.destination, filename := copy.filename }

def result (copy : FileCopy) : CopySession :=
  copy.attempts.foldl (CopySession.attempt copy.service copy.options) copy.start

def source (copy : FileCopy) : Bytes := copy.service.snapshot.source copy.filename

end FileCopy

end QuorumKit
