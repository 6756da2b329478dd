import AdvisKV.Model.StateMachine
import AdvisKV.Model.WalFile

/-!
# AdvisKV — the bytes of a snapshot file

`SnapshotStore::write_snapshot_to_file`, `verify_snapshot_file` and `SnapshotFileReader`. A file is a magic number,
the header, the keys and values, the request records, and a trailer with the counts, the checksum and the length
of all that comes before. The checksum is computed while the file is written, piece by piece; it is verified in
chunks of another size.

A record goes through the writers in one piece here, where the source writes its fields one after another; neither
the buffer nor the checksum depends on the pieces (`FileWriter.contents_writeRaw`, `updateCrc32_append`).
-/

namespace AdvisKV.Wire

/-! ## Records -/

structure SnapshotHeader where
  applyIndex : Int64 := 0
  applyTerm : Int64 := 0
  members : List RaftMember := []
deriving DecidableEq

/-- `RequestRecord`; the status is kept as its code and its message. -/
structure RequestRecord where
  requestId : Bytes := []
  op : WriteOpType := .none
  payloadHash : UInt64 := 0
  statusCode : Int32 := 0
  statusMsg : Bytes := []
deriving DecidableEq

structure SnapshotData where
  header : SnapshotHeader := {}
  kvs : List (Bytes × Bytes) := []
  requestRecords : List RequestRecord := []
deriving DecidableEq

instance : BinaryCodec SnapshotHeader where
  encode v := encode v.applyIndex ++ (encode v.applyTerm ++ (encode (Int32.ofNat v.members.length) ++
    v.members.flatMap encode))
  decode k := do
    let applyIndex ← decode k
    let applyTerm ← decode k
    let memberCount : Int32 ← decode k
    ensure (0 ≤ memberCount) ⟨.error, "invalid snapshot member count: " ++ toString memberCount.toInt⟩
    let members ← Decoder.times (decode k) memberCount.toInt.toNat
    pure { applyIndex, applyTerm, members }

instance : BinaryCodec RequestRecord where
  encode v := encode v.requestId ++ (encode v.op ++ (encode v.payloadHash ++ (encode v.statusCode ++
    encode v.statusMsg)))
  decode k := do
    let requestId ← decode k
    let op ← decode k
    let payloadHash ← decode k
    let statusCode ← decode k
    let statusMsg ← decode k
    pure { requestId, op, payloadHash, statusCode, statusMsg }

structure SnapshotHeader.Fits (v : SnapshotHeader) : Prop where
  count : v.members.length < 2 ^ 31
  members : ∀ m ∈ v.members, m.peer.Fits

/-- A list behind its number. -/
theorem members_decodes {α : Type} [BinaryCodec α] {xs : List α} (hcount : xs.length < 2 ^ 31)
    (hxs : ∀ x ∈ xs, Exact x) (k : BinaryReader) :
    (Decoder.times (decode k) (Int32.ofNat xs.length).toInt.toNat).Decodes (xs.flatMap encode) xs := by
  rw [toInt_ofNat_int32 hcount, Int.toNat_natCast]
  exact .times fun x hx => hxs x hx k

theorem exact_snapshotHeader {v : SnapshotHeader} (h : v.Fits) : Exact v := by
  intro k
  have hmembers := members_decodes h.count (fun m hm => exact_raftMember (h.members m hm)) k
  have hcount := ensure_decodes (decide_eq_true (nonneg_ofNat_int32 h.count))
    ⟨.error, "invalid snapshot member count: " ++ toString (Int32.ofNat v.members.length).toInt⟩
  refine (exact_int64 v.applyIndex k).bind ?_
  refine (exact_int64 v.applyTerm k).bind ?_
  refine (exact_int32 _ k).bind ?_
  exact hcount.bind (hmembers.map fun members => { v with members })

structure RequestRecord.Fits (v : RequestRecord) : Prop where
  requestId : v.requestId.length < 2 ^ 31
  statusMsg : v.statusMsg.length < 2 ^ 31

theorem exact_requestRecord {v : RequestRecord} (h : v.Fits) : Exact v := by
  intro k
  refine (exact_bytes h.requestId k).bind ?_
  refine (exact_writeOpType v.op k).bind ?_
  refine (exact_uint64 v.payloadHash k).bind ?_
  refine (exact_int32 v.statusCode k).bind ?_
  exact (exact_bytes h.statusMsg k).map fun statusMsg => { v with statusMsg }

/-! ## Writing -/

/-- `ChecksumWriter`. -/
structure ChecksumWriter where
  inner : FileWriter := {}
  crc : UInt32 := 0
  bytes : Nat := 0

namespace ChecksumWriter

def writeRaw (w : ChecksumWriter) (data : Bytes) : ChecksumWriter :=
  { inner := w.inner.writeRaw data, crc := updateCrc32 w.crc data, bytes := w.bytes + data.length }

/-- The writer has seen exactly `body`. -/
structure Wrote (w : ChecksumWriter) (body : Bytes) : Prop where
  contents : w.inner.contents = body
  crc : w.crc = computeCrc32 body
  bytes : w.bytes = body.length

theorem wrote_nothing : Wrote {} [] := ⟨rfl, rfl, rfl⟩

theorem Wrote.writeRaw {w : ChecksumWriter} {body : Bytes} (h : w.Wrote body) (data : Bytes) :
    (w.writeRaw data).Wrote (body ++ data) where
  contents := by rw [ChecksumWriter.writeRaw, FileWriter.contents_writeRaw, h.contents]
  crc := by rw [computeCrc32, updateCrc32_append, ← computeCrc32, ← h.crc]; rfl
  bytes := by rw [List.length_append, ← h.bytes]; rfl

end ChecksumWriter

def kSnapshotMagic : Int32 := 0x4B534850

def kSnapshotTrailerBytes : Nat := 4 + 4 + 4 + 8 + 4

def kSnapshotVerifyBufferBytes : Nat := 64 * 1024

namespace SnapshotStore

def writeKvs (w : ChecksumWriter) (kvs : List (Bytes × Bytes)) : ChecksumWriter :=
  kvs.foldl (fun w kv => (w.writeRaw (encode kv.1)).writeRaw (encode kv.2)) w

/-- The loop over the request records; it stops at a record without an id. -/
def writeRequests : ChecksumWriter → List RequestRecord → Status × ChecksumWriter
  | w, [] => (.OK, w)
  | w, record :: records =>
    if record.requestId = [] then (⟨.invalidArgument, "cannot snapshot an empty request_id"⟩, w)
    else writeRequests (w.writeRaw (encode record)) records

/-- The trailer's writes; they go past the checksum. -/
def trailerPieces (kvCount requestCount : Nat) (crc : UInt32) (bytes : Nat) : List Bytes :=
  [encode (Int32.ofNat kvCount), encode (Int32.ofNat requestCount), encode crc,
    encode (Int64.ofNat (bytes + kSnapshotTrailerBytes)), encode kSnapshotMagic]

/-- The status and the file after it, which is empty before. -/
def writeSnapshotToFile (snapshot : SnapshotData) (members : List RaftMember) : Status × Bytes :=
  let w := ({} : ChecksumWriter).writeRaw (encode kSnapshotMagic)
  let w := w.writeRaw (encode { snapshot.header with members })
  let w := writeKvs w snapshot.kvs
  let r := writeRequests w snapshot.requestRecords
  if r.1.fail then (r.1, r.2.inner.file)
  else
    let pieces := trailerPieces snapshot.kvs.length snapshot.requestRecords.length r.2.crc r.2.bytes
    (.OK, (pieces.foldl FileWriter.writeRaw r.2.inner).flush.file)

end SnapshotStore

/-! ## Reading -/

structure SnapshotTrailer where
  kvCount : Int32 := 0
  requestCount : Int32 := 0
  bodyCrc32 : UInt32 := 0
  totalLen : Int64 := 0
deriving DecidableEq

def readSnapshotTrailer (k : BinaryReader) : Decoder Status SnapshotTrailer := do
  let kvCount : Int32 ← decode k
  let requestCount : Int32 ← decode k
  let bodyCrc32 ← decode k
  let totalLen ← decode k
  let tailMagic : Int32 ← decode k
  ensure (tailMagic == kSnapshotMagic)
    ⟨.error, "snapshot trailer magic mismatch, not a snapshot file or not fully written"⟩
  ensure (0 ≤ kvCount && 0 ≤ requestCount)
    ⟨.error, "invalid snapshot counts, kv_count:" ++ toString kvCount.toInt ++ ", request_count:" ++
      toString requestCount.toInt⟩
  pure { kvCount, requestCount, bodyCrc32, totalLen }

/-- The checksum of the rest of the body, chunk by chunk. -/
def checksumLoop (k : BinaryReader) (bodySize : Nat) : Nat → UInt32 → Nat → Bytes → Except Status UInt32
  | 0, runningCrc, _, _ => .ok runningCrc
  | fuel + 1, runningCrc, done, data =>
    if done < bodySize then
      let want := min kSnapshotVerifyBufferBytes (bodySize - done)
      match k.readRaw want data with
      | .error st => .error st
      | .ok (chunk, rest) => checksumLoop k bodySize fuel (updateCrc32 runningCrc chunk) (done + want) rest
    else .ok runningCrc

def verifySnapshotFile (path : String) (file : Bytes) : Except Status SnapshotTrailer := do
  let k := BinaryReader.file path
  if file.length ≤ kSnapshotTrailerBytes then
    throw ⟨.error, "snapshot file too small to be complete: " ++ toString file.length⟩
  let (trailer, _) ← readSnapshotTrailer k (file.drop (file.length - kSnapshotTrailerBytes))
  if trailer.totalLen ≠ Int64.ofNat file.length then
    throw ⟨.error, "snapshot total_len mismatch, trailer:" ++ toString trailer.totalLen.toInt ++ " actual:" ++
      toString file.length⟩
  let (headMagic, rest) ← (decode k : Decoder Status Int32) file
  if headMagic ≠ kSnapshotMagic then
    throw ⟨.error, "snapshot head magic mismatch, not a snapshot file"⟩
  let bodySize := file.length - kSnapshotTrailerBytes
  let runningCrc ← checksumLoop k bodySize bodySize (updateCrc32 0 (encode headMagic)) 4 rest
  if runningCrc ≠ trailer.bodyCrc32 then
    throw ⟨.error, "snapshot body crc mismatch, file is corrupted"⟩
  pure trailer

/-- `SnapshotFileReader`, with what is behind its position in the file. -/
structure SnapshotFileReader where
  header : SnapshotHeader
  kvCount : Int32
  requestCount : Int32
  rest : Bytes

namespace SnapshotFileReader

/-- `open_reader` on a file that exists: `SnapshotFileReader::initialize`. -/
def openReader (path : String) (file : Bytes) : Except Status SnapshotFileReader := do
  let trailer ← verifySnapshotFile path file
  let (header, rest) ← (decode (.file path) : Decoder Status SnapshotHeader) (file.drop 4)
  pure { header, kvCount := trailer.kvCount, requestCount := trailer.requestCount, rest }

/-- `for_each_kv`: what the visitor is given. -/
def forEachKv (path : String) (r : SnapshotFileReader) : Decoder Status (List (Bytes × Bytes)) :=
  Decoder.times (do
    let key ← decode (.file path)
    let value ← decode (.file path)
    pure (key, value)) r.kvCount.toInt.toNat

def forEachRequest (path : String) (r : SnapshotFileReader) : Decoder Status (List RequestRecord) :=
  Decoder.times (do
    let record : RequestRecord ← decode (.file path)
    ensure record.op.isKvWriteOp ⟨.error, "invalid snapshot request op"⟩
    pure record) r.requestCount.toInt.toNat

end SnapshotFileReader

/-! ## Records and the model's values -/

/-- The value of `StatusCode`. -/
def statusValue : StatusCode → Int32
  | .ok => 0
  | .error => 1
  | .keyNotFound => 2
  | .invalidArgument => 3
  | .dbNotFound => 4
  | .tableNotFound => 5
  | .replicaNotFound => 6
  | .replicaManagerNotFound => 7
  | .notSupported => 8
  | .alreadyExist => 9
  | .noStub => 10
  | .rpcError => 11
  | .retryError => 12
  | .resourceExhausted => 13
  | .notInit => 14
  | .conditionNotMet => 15
  | .routeNotFound => 1000
  | .tableMetaCacheNotFound => 1001
  | .dbMetaCacheNotFound => 1002
  | .replicaError => 1003
  | .notLeader => 2000
  | .notYetCommit => 2001
  | .isRecovering => 2002
  | .notVoter => 2003
  | .readIndexNotReady => 2004
  | .isFaulted => 2005
  | .unknown => 4000
  | .sdkTryAgain => 4001
  | .getEof => 5000
  | .partialRead => 5001

/-- The cast back; a value without an enumerator is `UNKNOWN` here. -/
def castStatusCode (value : Int32) : StatusCode :=
  ([.ok, .error, .keyNotFound, .invalidArgument, .dbNotFound, .tableNotFound, .replicaNotFound,
    .replicaManagerNotFound, .notSupported, .alreadyExist, .noStub, .rpcError, .retryError, .resourceExhausted,
    .notInit, .conditionNotMet, .routeNotFound, .tableMetaCacheNotFound, .dbMetaCacheNotFound, .replicaError,
    .notLeader, .notYetCommit, .isRecovering, .notVoter, .readIndexNotReady, .isFaulted, .sdkTryAgain, .getEof,
    .partialRead].find? fun code => statusValue code == value).getD .unknown

theorem castStatusCode_statusValue (code : StatusCode) : castStatusCode (statusValue code) = code := by
  cases code <;> decide

/-- The bytes of a message. -/
def textBytes (s : String) : Bytes := s.toUTF8.data.toList

def bytesText (bs : Bytes) : String := (String.fromUTF8? ⟨bs.toArray⟩).getD ""

theorem bytesText_textBytes (s : String) : bytesText (textBytes s) = s := by
  have hvalid : String.fromUTF8? s.toUTF8 = some s := dif_pos s.isValidUTF8
  rw [bytesText, textBytes, Array.toArray_toList]
  exact congrArg (·.getD "") hvalid

def RequestRecord.ofModel (r : AdvisKV.RequestRecord) : RequestRecord :=
  { requestId := r.requestId, op := r.op, payloadHash := r.payloadHash
    statusCode := statusValue r.applyStatus.code, statusMsg := textBytes r.applyStatus.msg }

def RequestRecord.toModel (r : RequestRecord) : AdvisKV.RequestRecord :=
  { requestId := r.requestId, op := r.op, payloadHash := r.payloadHash
    applyStatus := ⟨castStatusCode r.statusCode, bytesText r.statusMsg⟩ }

theorem RequestRecord.toModel_ofModel (r : AdvisKV.RequestRecord) : (ofModel r).toModel = r := by
  simp only [ofModel, toModel, castStatusCode_statusValue, bytesText_textBytes]

def RaftMember.toModel (m : RaftMember) : AdvisKV.RaftMember :=
  { peer := m.peer.toModel, memberType := m.memberType }

def SnapshotHeader.toModel (h : SnapshotHeader) : AdvisKV.SnapshotHeader :=
  { applyIndex := h.applyIndex.toInt.toNat, applyTerm := h.applyTerm.toInt.toNat
    members := h.members.map RaftMember.toModel }

/-- A captured snapshot; its members are given to the writer apart. -/
def SnapshotData.ofModel (d : AdvisKV.SnapshotData) : SnapshotData :=
  { header := { applyIndex := Int64.ofNat d.header.applyIndex, applyTerm := Int64.ofNat d.header.applyTerm }
    kvs := d.kvs
    requestRecords := d.requestRecords.map RequestRecord.ofModel }

/-- `open_reader`, and what its visitors are given. -/
def readSnapshot (path : String) (file : Bytes) : Except Status AdvisKV.SnapshotData := do
  let r ← SnapshotFileReader.openReader path file
  let (kvs, rest) ← r.forEachKv path r.rest
  let (records, _) ← r.forEachRequest path rest
  pure { header := r.header.toModel, kvs, requestRecords := records.map RequestRecord.toModel }

/-- `KvStateMachine::restore` of a file. -/
def restoreFromFile (path : String) (file : Bytes) : Except Status KvStateMachine := do
  KvStateMachine.restore (← readSnapshot path file)

end AdvisKV.Wire
