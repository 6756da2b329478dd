import AdvisKV.Model.ReplicaLoop

/-!
# AdvisKV — sending a snapshot

`RaftSender::send_install_snapshot`: the published file goes out in chunks, one call after another, until the end of
the file is sent or a call fails. The file stays open over all calls, so that every chunk is read from the same
bytes, whatever is published meanwhile.
-/

namespace AdvisKV

/-- `SnapshotFileReader::read_chunk`: the bytes and whether the file ends with them. -/
def readChunk (file : Bytes) (offset maxBytes : Nat) : Except Status (Bytes × Bool) :=
  if file.length < offset then .error ⟨.error, "snapshot chunk offset out of range"⟩
  else
    let readLen := min maxBytes (file.length - offset)
    .ok ((file.drop offset).take readLen, decide (file.length ≤ offset + readLen))

namespace RaftSender

/-- How a transfer ends: the status, the result of its last call, and the chunks that went out. -/
structure Sent where
  status : Status := .OK
  result : InstallSnapshotResult := {}
  chunks : List InstallSnapshotParam := []

/-- What the transport makes of the call with this number. -/
abbrev Transport := Nat → InstallSnapshotParam → Status × InstallSnapshotResult

/-- The loop, at call number `n`. -/
def sendLoop (chunkBytes : Nat) (file : Bytes) (param : InstallSnapshotParam) (transport : Transport) :
    Nat → Nat → Nat → InstallSnapshotResult → Option Sent
  | 0, _, _, _ => none
  | fuel + 1, n, offset, result =>
    match readChunk file offset chunkBytes with
    | .error status => some { status, result }
    | .ok (data, eof) =>
      let chunk := { param with offset, data, done := eof }
      let answer := transport n chunk
      if answer.1.fail then some { status := answer.1, result := answer.2, chunks := [chunk] }
      else if answer.2.status.fail then some { result := answer.2, chunks := [chunk] }
      else if eof then some { result := { answer.2 with status := .OK }, chunks := [chunk] }
      else (sendLoop chunkBytes file param transport fuel (n + 1) (offset + data.length) answer.2).map
        fun sent => { sent with chunks := chunk :: sent.chunks }

/-- `SnapshotStore::verify_header`. -/
def verifyHeader (actual : SnapshotHeader) (param : InstallSnapshotParam) : Status :=
  if actual.applyIndex ≠ param.snapshotIndex ∨ actual.applyTerm ≠ param.snapshotTerm then
    ⟨.conditionNotMet, "snapshot header mismatch, expected index:" ++ toString param.snapshotIndex ++ " term:" ++
      toString param.snapshotTerm ++ ", actual index:" ++ toString actual.applyIndex ++ " term:" ++
      toString actual.applyTerm⟩
  else .OK

/-- `send_install_snapshot` with the published file there is when it starts. -/
def sendInstallSnapshot (codec : SnapshotCodec) (chunkBytes : Nat) (published : Option Bytes)
    (param : InstallSnapshotParam) (transport : Transport) (fuel : Nat) : Option Sent :=
  let result : InstallSnapshotResult := { term := param.term }
  match published with
  | none =>
    some { status := ⟨.error, "no local snapshot to send, snapshot_index:" ++ toString param.snapshotIndex ++
      ", snapshot_term:" ++ toString param.snapshotTerm⟩, result }
  | some file =>
    match codec.decode file with
    | .error status => some { status, result }
    | .ok d =>
      let checked := verifyHeader d.header param
      if checked.fail then some { status := checked, result }
      else sendLoop chunkBytes file param transport fuel 0 0 result

end RaftSender

end AdvisKV
