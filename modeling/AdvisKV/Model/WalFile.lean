import AdvisKV.Model.Binary
import AdvisKV.Model.Persist

/-!
# AdvisKV — the bytes of the WAL

`WalStore::append_batch`, `rewrite` and `read_wal_from_disk` on the bytes of the file. The system calls
themselves succeed here; what can fail is the encoding of an entry. A batch that fails half way leaves in the
file what the buffer has already been flushed of.
-/

namespace AdvisKV.Wire

/-! ## Records and the model's values -/

def Endpoint.toModel (v : Endpoint) : AdvisKV.Endpoint := { ip := v.ip, port := v.port.toInt }

def ReplicaID.toModel (v : ReplicaID) : AdvisKV.ReplicaID :=
  { tableId := v.tableId.toInt, shardIndex := v.shardIndex.toInt, replicaSeq := v.replicaSeq.toInt }

def PeerMember.toModel (v : PeerMember) : AdvisKV.PeerMember :=
  { nodeId := v.nodeId, replicaId := v.replicaId.toModel, endpoint := v.endpoint.toModel }

/-- The entry without the machine types; terms and indexes of a log are not negative. -/
def LogEntry.toModel (v : LogEntry) : AdvisKV.LogEntry :=
  { term := v.term.toInt.toNat, index := v.index.toInt.toNat, opType := v.opType, key := v.key
    value := v.value, expected := v.expected, configMember := v.configMember.toModel
    configReplicaId := v.configReplicaId.toModel, requestId := v.requestId }

/-! ## WalStore -/

structure WalReadResult where
  entries : List LogEntry := []
  error : Bool := false
  errorMsg : String := ""
deriving DecidableEq

def WalReadResult.toModel (r : WalReadResult) : AdvisKV.WalReadResult :=
  { entries := r.entries.map LogEntry.toModel, error := r.error, errorMsg := r.errorMsg }

namespace WalStore

/-- The loop over the entries in `append_batch` and `rewrite_wal_unlocked`. -/
def encodeEntries : FileWriter → List LogEntry → Status × FileWriter
  | w, [] => (.OK, w)
  | w, e :: es =>
    let r := encodeCrc e w
    if r.1.fail then r else encodeEntries r.2 es

/-- The status and the file after it. A writer that is dropped does not flush. -/
def appendBatch (file : Bytes) (entries : List LogEntry) : Status × Bytes :=
  let r := encodeEntries { file } entries
  if r.1.fail then (r.1, r.2.file) else (.OK, r.2.flush.file)

/-- The entries go to a temporary file that takes the place of the old one. -/
def rewrite (file : Bytes) (entries : List LogEntry) : Status × Bytes :=
  let r := encodeEntries {} entries
  if r.1.fail then (r.1, file) else (.OK, r.2.flush.file)

/-- The read loop behind a record with index `prevIndex`, if there was one. Every record takes bytes off, so
that more fuel than bytes is never used up. -/
def readLoop (k : BinaryReader) : Nat → Option Int64 → Bytes → WalReadResult
  | 0, _, _ => {}
  | fuel + 1, prevIndex, data =>
    match (decodeCrc k : Decoder Status LogEntry) data with
    | .error st =>
      if st.code = .getEof then {}
      else if st.code = .partialRead then { error := true, errorMsg := "partial wal record" }
      else { error := true, errorMsg := if st.msg = "" then "wal record decode failure" else st.msg }
    | .ok (entry, rest) =>
      match prevIndex.filter fun p => entry.index ≠ p + 1 with
      | some p =>
        { error := true
          errorMsg := "wal index is not continuous, prev=" ++ toString p.toInt ++ ", current=" ++
            toString entry.index.toInt }
      | none =>
        let r := readLoop k fuel (some entry.index) rest
        { r with entries := entry :: r.entries }

/-- `none` is a file that does not exist. -/
def readWalFromDisk (path : String) : Option Bytes → WalReadResult
  | none => {}
  | some data => readLoop (.file path) (data.length + 1) none data

end WalStore

end AdvisKV.Wire
