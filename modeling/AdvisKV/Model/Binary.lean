import AdvisKV.Lib.Decoder
import AdvisKV.Model.Types

/-!
# AdvisKV — the binary format

`BinaryCodec` writes a record field by field: numbers in their own width, lowest byte first, strings behind
their length, enumerations as `int32`. The records here have the machine types of the source; the rest of the
model uses their natural-number and integer counterparts.

A framed record is its length, its checksum and its payload. A reader that stands at the end of its bytes
reports `GET_EOF`, one that meets the end inside a field `PARTIAL_READ`; behind the length of a frame both are
`PARTIAL_READ`.

Main results:

* `Exact` with one lemma per record — what is written is read back, in front of anything.
* `updateCrc32_append` — a checksum over pieces.
* `FileWriter.contents_writeRaw` — the buffer of a writer does not show in what is written.
* `decodeCrc_frame` — framed records.
* `decodeCrc_torn` — a frame that is cut off.
-/

namespace AdvisKV.Wire

/-! ## Readers -/

/-- `BufferReader` or `FileReader`; they differ in their messages. -/
inductive BinaryReader where
  | buffer
  | file (path : String)

namespace BinaryReader

def getEof : BinaryReader → Status
  | buffer => ⟨.getEof, "read hit end of buffer"⟩
  | file path => ⟨.getEof, "read hit eof: " ++ path⟩

def partialRead (got size : Nat) : BinaryReader → Status
  | buffer => ⟨.partialRead, "read hit end of buffer before requested bytes"⟩
  | file path => ⟨.partialRead, "read " ++ toString got ++ " of " ++ toString size ++ " bytes before eof: " ++ path⟩

/-- `read_raw`. -/
def readRaw (k : BinaryReader) (size : Nat) : Decoder Status Bytes := fun data =>
  if size = 0 then .ok ([], data)
  else if data = [] then .error k.getEof
  else if data.length < size then .error (k.partialRead data.length size)
  else .ok (data.take size, data.drop size)

theorem readRaw_decodes (k : BinaryReader) (bs : Bytes) : (k.readRaw bs.length).Decodes bs bs := by
  intro rest
  unfold readRaw
  -- a read of no bytes does not look at the data, so the end of a file is no error there
  by_cases hempty : bs = []
  · subst hempty
    rfl
  · rw [if_neg (by simpa using hempty), if_neg (by simp [hempty]), if_neg (by simp), List.take_left,
      List.drop_left]

/-- Where enough bytes are left, they are taken off the front. -/
theorem readRaw_enough (k : BinaryReader) {size : Nat} {data : Bytes} (h : size ≤ data.length) :
    k.readRaw size data = .ok (data.take size, data.drop size) := by
  have hread := k.readRaw_decodes (data.take size) (data.drop size)
  rwa [List.length_take, Nat.min_eq_left h, List.take_append_drop] at hread

/-- Bytes that do not suffice. -/
theorem readRaw_short (k : BinaryReader) {size : Nat} {data : Bytes} (h : data.length < size) :
    ∃ st : Status, k.readRaw size data = .error st ∧
      st.code = if data = [] then .getEof else .partialRead := by
  unfold readRaw
  rw [if_neg (by omega : ¬size = 0)]
  -- the two codes are what a caller tells a clean end from a torn record by
  by_cases hempty : data = []
  · refine ⟨k.getEof, if_pos hempty, ?_⟩
    rw [if_pos hempty]
    cases k <;> rfl
  · refine ⟨k.partialRead data.length size, by rw [if_neg hempty, if_pos h], ?_⟩
    rw [if_neg hempty]
    cases k <;> rfl

end BinaryReader

def ensure (condition : Bool) (st : Status) : Decoder Status Unit :=
  if condition then pure () else throw st

/-- `RETURN_IF_INVALID_CONDITION`. -/
def require (condition : Bool) (msg : String) : Decoder Status Unit := ensure condition ⟨.invalidArgument, msg⟩

theorem ensure_decodes {condition : Bool} (h : condition = true) (st : Status) :
    (ensure condition st).Decodes [] () := by
  unfold ensure
  rw [if_pos h]
  exact Decoder.Decodes.pure ()

theorem require_decodes {condition : Bool} (h : condition = true) (msg : String) :
    (require condition msg).Decodes [] () := ensure_decodes h _

/-! ## Codecs -/

class BinaryCodec (α : Type) where
  encode : α → Bytes
  decode : BinaryReader → Decoder Status α

export BinaryCodec (encode decode)

/-- **What is written is read back**, in front of anything. -/
def Exact {α : Type} [BinaryCodec α] (v : α) : Prop :=
  ∀ k, (decode k : Decoder Status α).Decodes (encode v) v

instance : BinaryCodec Int32 where
  encode v := leBytes 4 v.toUInt32.toNat
  decode k := do
    let raw ← k.readRaw 4
    pure (UInt32.ofNat (leValue raw)).toInt32

instance : BinaryCodec Int64 where
  encode v := leBytes 8 v.toUInt64.toNat
  decode k := do
    let raw ← k.readRaw 8
    pure (UInt64.ofNat (leValue raw)).toInt64

instance : BinaryCodec UInt32 where
  encode v := leBytes 4 v.toNat
  decode k := do
    let raw ← k.readRaw 4
    pure (UInt32.ofNat (leValue raw))

instance : BinaryCodec UInt64 where
  encode v := leBytes 8 v.toNat
  decode k := do
    let raw ← k.readRaw 8
    pure (UInt64.ofNat (leValue raw))

/-- A number of a fixed width is read back, whatever type its value is cast to. -/
theorem number_decodes {α : Type} (k : BinaryReader) (width : Nat) {n : Nat} (h : n < 256 ^ width)
    (cast : Nat → α) :
    (do let raw ← k.readRaw width; pure (cast (leValue raw)) : Decoder Status α).Decodes (leBytes width n) (cast n) := by
  have hraw := (k.readRaw_decodes (leBytes width n)).map fun raw => cast (leValue raw)
  rwa [leValue_leBytes h, length_leBytes] at hraw

theorem exact_uint32 (v : UInt32) : Exact v := by
  intro k
  have hread := number_decodes k 4 v.toNat_lt UInt32.ofNat
  rwa [UInt32.ofNat_toNat] at hread

theorem exact_int32 (v : Int32) : Exact v := by
  intro k
  have hread := number_decodes k 4 v.toUInt32.toNat_lt fun n => (UInt32.ofNat n).toInt32
  rwa [UInt32.ofNat_toNat] at hread

theorem exact_uint64 (v : UInt64) : Exact v := by
  intro k
  have hread := number_decodes k 8 v.toNat_lt UInt64.ofNat
  rwa [UInt64.ofNat_toNat] at hread

theorem exact_int64 (v : Int64) : Exact v := by
  intro k
  have hread := number_decodes k 8 v.toUInt64.toNat_lt fun n => (UInt64.ofNat n).toInt64
  rwa [UInt64.ofNat_toNat] at hread

/-- A string behind its length. The length is cast to `int32_t` and as many bytes are written as the cast value
says, so that a string of `2 ^ 32` bytes or more is cut down without an error; where the cast value is negative
the source has no defined behaviour, and no byte is written here. -/
instance : BinaryCodec Bytes where
  encode s := encode (Int32.ofNat s.length) ++ s.take (Int32.ofNat s.length).toInt.toNat
  decode k := do
    let len : Int32 ← decode k
    require (0 ≤ len) "invalid string len"
    k.readRaw len.toInt.toNat

variable {n : Nat}

theorem toInt_ofNat_int32 (h : n < 2 ^ 31) : (Int32.ofNat n).toInt = n :=
  Int32.toInt_ofNat_of_lt h

theorem nonneg_ofNat_int32 (h : n < 2 ^ 31) : 0 ≤ Int32.ofNat n := by
  rw [Int32.le_iff_toInt_le, toInt_ofNat_int32 h]
  exact Int.natCast_nonneg n

/-- A string comes back when its length survives the cast. -/
theorem exact_bytes {s : Bytes} (h : s.length < 2 ^ 31) : Exact s := by
  intro k
  -- below `2 ^ 31` the cast keeps the length, so the whole string is written
  have hlen : (Int32.ofNat s.length).toInt.toNat = s.length := by rw [toInt_ofNat_int32 h, Int.toNat_natCast]
  show (decode k : Decoder Status Bytes).Decodes (encode (Int32.ofNat s.length) ++ s.take _) s
  rw [hlen, List.take_length]
  refine (exact_int32 (Int32.ofNat s.length) k).bind ?_
  have hraw : (k.readRaw (Int32.ofNat s.length).toInt.toNat).Decodes s s := by
    rw [hlen]
    exact k.readRaw_decodes s
  exact (require_decodes (decide_eq_true (nonneg_ofNat_int32 h)) "invalid string len").bind
    (f := fun _ => k.readRaw (Int32.ofNat s.length).toInt.toNat) hraw

@[simp] theorem length_encode_int32 (v : Int32) : (encode v).length = 4 := length_leBytes _ _

@[simp] theorem length_encode_int64 (v : Int64) : (encode v).length = 8 := length_leBytes _ _

@[simp] theorem length_encode_uint32 (v : UInt32) : (encode v).length = 4 := length_leBytes _ _

/-! ## Enumerations -/

/-- An enumerator is read as an `int32` between 0 and `MAX_VALUE`. -/
def decodeEnum {α : Type} (maxValue : Nat) (cast : Nat → α) (msg : String) (k : BinaryReader) :
    Decoder Status α := do
  let raw : Int32 ← decode k
  require (0 ≤ raw && raw ≤ Int32.ofNat maxValue) msg
  pure (cast raw.toInt.toNat)

/-- An enumerator below the bound comes back as it was written. -/
theorem decodeEnum_decodes {α : Type} {maxValue : Nat} (hn : n ≤ maxValue) (hmax : maxValue < 2 ^ 31)
    (cast : Nat → α) (msg : String) (k : BinaryReader) :
    (decodeEnum maxValue cast msg k).Decodes (encode (Int32.ofNat n)) (cast n) := by
  have hlt : n < 2 ^ 31 := by omega
  have hle : Int32.ofNat n ≤ Int32.ofNat maxValue := by
    rw [Int32.le_iff_toInt_le, toInt_ofNat_int32 hlt, toInt_ofNat_int32 hmax]
    exact_mod_cast hn
  have hvalid : (decide (0 ≤ Int32.ofNat n) && decide (Int32.ofNat n ≤ Int32.ofNat maxValue)) = true := by
    rw [decide_eq_true (nonneg_ofNat_int32 hlt), decide_eq_true hle]
    rfl
  have hcast := (require_decodes hvalid msg).map fun _ => cast (Int32.ofNat n).toInt.toNat
  have hboth := (exact_int32 (Int32.ofNat n) k).bind
    (f := fun raw => do
      require (0 ≤ raw && raw ≤ Int32.ofNat maxValue) msg
      pure (cast raw.toInt.toNat)) hcast
  rw [List.append_nil, toInt_ofNat_int32 hlt, Int.toNat_natCast] at hboth
  exact hboth

def castMemberType : Nat → RaftMemberType
  | 0 => .nonMember
  | 1 => .voter
  | _ => .learner

def memberTypeValue : RaftMemberType → Nat
  | .nonMember => 0
  | .voter => 1
  | .learner => 2

instance : BinaryCodec RaftMemberType where
  encode t := encode (Int32.ofNat (memberTypeValue t))
  decode := decodeEnum 2 castMemberType "invalid raft member type"

theorem exact_memberType (t : RaftMemberType) : Exact t := by
  intro k
  have hvalue : memberTypeValue t ≤ 2 := by cases t <;> decide
  have hdecodes := decodeEnum_decodes hvalue (by decide) castMemberType "invalid raft member type" k
  rwa [show castMemberType (memberTypeValue t) = t by cases t <;> rfl] at hdecodes

def castWriteOpType : Nat → WriteOpType
  | 0 => .none
  | 1 => .put
  | 2 => .del
  | 3 => .addLearner
  | 4 => .promoteVoter
  | 5 => .removeMember
  | _ => .cas

instance : BinaryCodec WriteOpType where
  encode op := encode (Int32.ofNat op.toNat)
  decode := decodeEnum 6 castWriteOpType "invalid write op type"

theorem exact_writeOpType (op : WriteOpType) : Exact op := by
  intro k
  have hvalue : op.toNat ≤ 6 := by cases op <;> decide
  have hdecodes := decodeEnum_decodes hvalue (by decide) castWriteOpType "invalid write op type" k
  rwa [show castWriteOpType op.toNat = op by cases op <;> rfl] at hdecodes

/-! ## Records -/

structure Endpoint where
  ip : Bytes := []
  port : Int32 := 0
deriving DecidableEq

structure ReplicaID where
  tableId : Int32 := -1
  shardIndex : Int32 := -1
  replicaSeq : Int32 := -1
deriving DecidableEq

structure PeerMember where
  nodeId : Bytes := []
  replicaId : ReplicaID := {}
  endpoint : Endpoint := {}
deriving DecidableEq

structure RaftMember where
  peer : PeerMember := {}
  memberType : RaftMemberType := .nonMember
deriving DecidableEq

structure LogEntry where
  term : Int64 := 0
  index : Int64 := 0
  opType : WriteOpType := .none
  key : Bytes := []
  value : Bytes := []
  expected : Bytes := []
  configMember : PeerMember := {}
  configReplicaId : ReplicaID := {}
  requestId : Bytes := []
deriving DecidableEq

instance : BinaryCodec Endpoint where
  encode v := encode v.ip ++ encode v.port
  decode k := do
    let ip ← decode k
    let port ← decode k
    pure { ip, port }

instance : BinaryCodec ReplicaID where
  encode v := encode v.tableId ++ (encode v.shardIndex ++ encode v.replicaSeq)
  decode k := do
    let tableId ← decode k
    let shardIndex ← decode k
    let replicaSeq ← decode k
    pure { tableId, shardIndex, replicaSeq }

instance : BinaryCodec PeerMember where
  encode v := encode v.nodeId ++ (encode v.replicaId ++ encode v.endpoint)
  decode k := do
    let nodeId ← decode k
    let replicaId ← decode k
    let endpoint ← decode k
    pure { nodeId, replicaId, endpoint }

instance : BinaryCodec RaftMember where
  encode v := encode v.peer ++ encode v.memberType
  decode k := do
    let peer ← decode k
    let memberType ← decode k
    pure { peer, memberType }

instance : BinaryCodec LogEntry where
  encode v := encode v.term ++ (encode v.index ++ (encode v.opType ++ (encode v.key ++ (encode v.value ++
    (encode v.expected ++ (encode v.configMember ++ (encode v.configReplicaId ++ encode v.requestId)))))))
  decode k := do
    let term ← decode k
    let index ← decode k
    let opType ← decode k
    let key ← decode k
    let value ← decode k
    let expected ← decode k
    let configMember ← decode k
    let configReplicaId ← decode k
    let requestId ← decode k
    pure { term, index, opType, key, value, expected, configMember, configReplicaId, requestId }

theorem exact_endpoint {v : Endpoint} (h : v.ip.length < 2 ^ 31) : Exact v := by
  intro k
  refine (exact_bytes h k).bind ?_
  exact (exact_int32 v.port k).map fun port => { v with port }

theorem exact_replicaID (v : ReplicaID) : Exact v := by
  intro k
  refine (exact_int32 v.tableId k).bind ?_
  refine (exact_int32 v.shardIndex k).bind ?_
  exact (exact_int32 v.replicaSeq k).map fun replicaSeq => { v with replicaSeq }

/-- The strings of a member have a length that fits. -/
def PeerMember.Fits (v : PeerMember) : Prop := v.nodeId.length < 2 ^ 31 ∧ v.endpoint.ip.length < 2 ^ 31

/-- A member comes back when both of its strings do. -/
theorem exact_peerMember {v : PeerMember} (h : v.Fits) : Exact v := by
  intro k
  refine (exact_bytes h.1 k).bind ?_
  refine (exact_replicaID v.replicaId k).bind ?_
  exact (exact_endpoint h.2 k).map fun endpoint => { v with endpoint }

theorem exact_raftMember {v : RaftMember} (h : v.peer.Fits) : Exact v := by
  intro k
  refine (exact_peerMember h k).bind ?_
  exact (exact_memberType v.memberType k).map fun memberType => { v with memberType }

structure LogEntry.Fits (v : LogEntry) : Prop where
  key : v.key.length < 2 ^ 31
  value : v.value.length < 2 ^ 31
  expected : v.expected.length < 2 ^ 31
  configMember : v.configMember.Fits
  requestId : v.requestId.length < 2 ^ 31

/-- A log entry comes back, field by field in the order they are written. -/
theorem exact_logEntry {v : LogEntry} (h : v.Fits) : Exact v := by
  intro k
  refine (exact_int64 v.term k).bind ?_
  refine (exact_int64 v.index k).bind ?_
  refine (exact_writeOpType v.opType k).bind ?_
  refine (exact_bytes h.key k).bind ?_
  refine (exact_bytes h.value k).bind ?_
  refine (exact_bytes h.expected k).bind ?_
  refine (exact_peerMember h.configMember k).bind ?_
  refine (exact_replicaID v.configReplicaId k).bind ?_
  exact (exact_bytes h.requestId k).map fun requestId => { v with requestId }

/-! ## Checksums -/

/-- One bit of the loop that fills the table. -/
def crc32Bit (crc : UInt32) : UInt32 :=
  if crc &&& 1 ≠ 0 then (crc >>> 1) ^^^ 0xEDB88320 else crc >>> 1

/-- `crc32_table()[i]`. -/
def crc32Table (i : UInt32) : UInt32 := Nat.iterate crc32Bit 8 i

def crc32Step (state : UInt32) (b : UInt8) : UInt32 :=
  (state >>> 8) ^^^ crc32Table ((state ^^^ b.toUInt32) &&& 0xFF)

def updateCrc32 (crc : UInt32) (data : Bytes) : UInt32 := ~~~(data.foldl crc32Step (~~~crc))

def computeCrc32 (data : Bytes) : UInt32 := updateCrc32 0 data

@[simp] theorem updateCrc32_nil (crc : UInt32) : updateCrc32 crc [] = crc := UInt32.not_not

/-- **The checksum of a stream does not depend on the pieces** it comes in. -/
theorem updateCrc32_append (crc : UInt32) (xs ys : Bytes) :
    updateCrc32 crc (xs ++ ys) = updateCrc32 (updateCrc32 crc xs) ys := by
  unfold updateCrc32
  rw [List.foldl_append, UInt32.not_not]

/-! ## Buffered writes -/

def kFileWriteBufferBytes : Nat := 64 * 1024

/-- `FileWriter`: the bytes that have reached the file and the ones still in the buffer. -/
structure FileWriter where
  file : Bytes := []
  buf : Bytes := []
deriving DecidableEq

namespace FileWriter

/-- Everything written so far. -/
def contents (w : FileWriter) : Bytes := w.file ++ w.buf

def flush (w : FileWriter) : FileWriter :=
  if w.buf = [] then w else { file := w.file ++ w.buf, buf := [] }

def writeRaw (w : FileWriter) (data : Bytes) : FileWriter :=
  if data.length = 0 then w
  else if kFileWriteBufferBytes ≤ data.length then
    let w := w.flush
    { w with file := w.file ++ data }
  else
    let w := if kFileWriteBufferBytes < w.buf.length + data.length then w.flush else w
    { w with buf := w.buf ++ data }

@[simp] theorem buf_flush (w : FileWriter) : w.flush.buf = [] := by
  unfold flush
  split
  · assumption
  · rfl

@[simp] theorem contents_flush (w : FileWriter) : w.flush.contents = w.contents := by
  unfold flush
  split
  · rfl
  · exact List.append_nil _

/-- After a flush the file holds everything written so far. -/
@[simp] theorem file_flush (w : FileWriter) : w.flush.file = w.contents := by
  have hall := w.contents_flush
  rwa [contents, buf_flush, List.append_nil] at hall

/-- A write appends, whether it goes to the buffer, around it, or behind a flush. -/
@[simp] theorem contents_writeRaw (w : FileWriter) (data : Bytes) :
    (w.writeRaw data).contents = w.contents ++ data := by
  unfold writeRaw
  split_ifs with hempty hlarge hfull
  · rw [List.length_eq_zero_iff.mp hempty, List.append_nil]
  · simp [contents]
  · simp [contents]
  · simp [contents]

theorem contents_foldl_writeRaw (pieces : List Bytes) (w : FileWriter) :
    (pieces.foldl writeRaw w).contents = w.contents ++ pieces.flatten := by
  induction pieces generalizing w with
  | nil => simp
  | cons piece pieces ih => simp [ih]

end FileWriter

/-! ## Framed records -/

def kMaxFramedPayloadBytes : Nat := 64 * 1024 * 1024

section Framed

variable {α : Type} [BinaryCodec α]

/-- The three writes of `encode_crc`. -/
def framePieces (v : α) : List Bytes :=
  let payload := encode v
  [encode (Int32.ofNat payload.length), encode (computeCrc32 payload), payload]

/-- The record as it stands in the file. -/
def frame (v : α) : Bytes := (framePieces v).flatten

def framable (v : α) : Bool :=
  !((encode v).length == 0 || decide (kMaxFramedPayloadBytes < (encode v).length))

def encodeCrc (v : α) (w : FileWriter) : Status × FileWriter :=
  if framable v then (.OK, (framePieces v).foldl FileWriter.writeRaw w)
  else (⟨.error, "invalid crc payload size: " ++ toString (encode v).length ++ ", max=" ++
    toString kMaxFramedPayloadBytes⟩, w)

/-- Behind the length of a record the end of the bytes is no longer a regular end. -/
def requireComplete {β : Type} (d : Decoder Status β) : Decoder Status β := fun data =>
  match d data with
  | .ok r => .ok r
  | .error st =>
    if st.code = .getEof then .error ⟨.partialRead, "incomplete crc record: " ++ st.msg⟩ else .error st

/-- The payload, read on its own and to its end. -/
def decodePayload (payload : Bytes) : Decoder Status α :=
  match decode .buffer payload with
  | .error st => throw ⟨.error, "invalid crc payload: " ++ st.msg⟩
  | .ok (v, rest) => if rest = [] then pure v else throw ⟨.error, "crc payload has trailing bytes"⟩

def decodeCrc (k : BinaryReader) : Decoder Status α := do
  let length : Int32 ← decode k
  ensure (0 < length && length ≤ Int32.ofNat kMaxFramedPayloadBytes)
    ⟨.error, "invalid crc payload length: " ++ toString length.toInt ++ ", max=" ++
      toString kMaxFramedPayloadBytes⟩
  let storedCrc : UInt32 ← requireComplete (decode k)
  let payload ← requireComplete (k.readRaw length.toInt.toNat)
  ensure (computeCrc32 payload == storedCrc) ⟨.error, "crc mismatch"⟩
  decodePayload payload

/-- What may be framed has a length the reader of a frame accepts. -/
theorem framable_bounds {v : α} (h : framable v = true) :
    0 < (encode v).length ∧ (encode v).length ≤ kMaxFramedPayloadBytes := by
  simp only [framable, Bool.not_eq_true', Bool.or_eq_false_iff, beq_eq_false_iff_ne,
    decide_eq_false_iff_not] at h
  omega

/-- A read that succeeds is not touched by the wrapper. -/
theorem requireComplete_decodes {β : Type} {d : Decoder Status β} {bs : Bytes} {v : β} (h : d.Decodes bs v) :
    (requireComplete d).Decodes bs v := by
  intro rest
  unfold requireComplete
  rw [h]

/-- Behind a length, either way of running out of bytes is a torn record. -/
theorem requireComplete_short {β : Type} {d : Decoder Status β} {data : Bytes} {st : Status}
    (h : d data = .error st) (hcode : st.code = if data = [] then .getEof else .partialRead) :
    ∃ st', requireComplete d data = .error st' ∧ st'.code = .partialRead := by
  unfold requireComplete
  rw [h]
  by_cases hempty : data = []
  · rw [if_pos hempty] at hcode
    exact ⟨_, if_pos hcode, rfl⟩
  · rw [if_neg hempty] at hcode
    exact ⟨st, if_neg (by rw [hcode]; decide), hcode⟩

/-- The payload of a frame is read to its end. -/
theorem decodePayload_encode {v : α} (h : Exact v) : (decodePayload (encode v) : Decoder Status α).Decodes [] v := by
  have hread := h .buffer []
  rw [List.append_nil] at hread
  unfold decodePayload
  rw [hread]
  exact Decoder.Decodes.pure v

section

variable {v : α} (hv : framable v = true)
include hv

/-- The length in front of a framed record passes the check of `decodeCrc`. -/
theorem length_accepted :
    (decide (0 < Int32.ofNat (encode v).length) &&
      decide (Int32.ofNat (encode v).length ≤ Int32.ofNat kMaxFramedPayloadBytes)) = true := by
  obtain ⟨hpos, hmax⟩ := framable_bounds hv
  have hK : kMaxFramedPayloadBytes < 2 ^ 31 := by decide
  have hlen := toInt_ofNat_int32 (show (encode v).length < 2 ^ 31 by omega)
  rw [Bool.and_eq_true, decide_eq_true_eq, decide_eq_true_eq, Int32.lt_iff_toInt_lt, Int32.le_iff_toInt_le, hlen,
    toInt_ofNat_int32 hK]
  exact ⟨Int.natCast_pos.mpr hpos, Int.ofNat_le.mpr hmax⟩

theorem length_cast : (Int32.ofNat (encode v).length).toInt.toNat = (encode v).length := by
  obtain ⟨-, hmax⟩ := framable_bounds hv
  have hK : kMaxFramedPayloadBytes < 2 ^ 31 := by decide
  rw [toInt_ofNat_int32 (by omega), Int.toNat_natCast]

/-- **A framed record** is read back, in front of anything. -/
theorem decodeCrc_frame (hexact : Exact v) (k : BinaryReader) :
    (decodeCrc k : Decoder Status α).Decodes (frame v) v := by
  have hraw : (k.readRaw (Int32.ofNat (encode v).length).toInt.toNat).Decodes (encode v) (encode v) := by
    rw [length_cast hv]
    exact k.readRaw_decodes (encode v)
  have hpayload := (ensure_decodes (beq_self_eq_true (computeCrc32 (encode v))) ⟨.error, "crc mismatch"⟩).bind
    (f := fun _ => (decodePayload (encode v) : Decoder Status α)) (decodePayload_encode hexact)
  refine (exact_int32 _ k).bind ?_
  refine (ensure_decodes (length_accepted hv) _).bind ?_
  refine (requireComplete_decodes (exact_uint32 _ k)).bind ?_
  exact (requireComplete_decodes hraw).bind hpayload

omit hv in
theorem frame_eq : frame v = encode (Int32.ofNat (encode v).length) ++
    (encode (computeCrc32 (encode v)) ++ encode v) := by
  simp [frame, framePieces]

omit hv in
theorem length_frame : (frame v).length = 8 + (encode v).length := by
  rw [frame_eq]
  simp only [List.length_append, length_encode_int32, length_encode_uint32]
  omega

/-- **A record that is cut off** is reported as such, wherever the cut is. -/
theorem decodeCrc_torn {n : Nat} (hpos : 0 < n) (hn : n < (frame v).length) (k : BinaryReader) :
    ∃ st, (decodeCrc k : Decoder Status α) ((frame v).take n) = .error st ∧ st.code = .partialRead := by
  rw [length_frame] at hn
  rw [frame_eq]
  set crc := computeCrc32 (encode v)
  set length := Int32.ofNat (encode v).length with hlength
  by_cases hfirst : n < 4
  · -- inside the length
    have hshort : ((encode length ++ (encode crc ++ encode v)).take n).length < 4 := by
      rw [List.length_take]
      omega
    obtain ⟨st, hread, hcode⟩ := k.readRaw_short hshort
    rw [if_neg (by simp only [← List.length_eq_zero_iff, List.length_take, List.length_append,
      length_encode_int32]; omega)] at hcode
    exact ⟨st, Decoder.bind_error (Decoder.bind_error hread _) _, hcode⟩
  -- the length is whole from here on, so the reader gets past it and its check
  have hrest : (encode length ++ (encode crc ++ encode v)).take n =
      encode length ++ (encode crc ++ encode v).take (n - 4) := by
    rw [List.take_append, List.take_of_length_le (by rw [length_encode_int32]; omega), length_encode_int32]
  have hstart : ∀ rest, (decodeCrc k : Decoder Status α) (encode length ++ rest) = (do
      let storedCrc : UInt32 ← requireComplete (decode k)
      let payload ← requireComplete (k.readRaw length.toInt.toNat)
      ensure (computeCrc32 payload == storedCrc) ⟨.error, "crc mismatch"⟩
      decodePayload payload : Decoder Status α) rest := fun rest =>
    (Decoder.bind_ok (exact_int32 length k rest) _).trans
      (Decoder.bind_ok (ensure_decodes (length_accepted hv) _ rest) _)
  rw [hrest, hstart]
  by_cases hsecond : n < 8
  · -- inside the checksum
    have hshort : ((encode crc ++ encode v).take (n - 4)).length < 4 := by
      rw [List.length_take]
      omega
    obtain ⟨st, hread, hcode⟩ := k.readRaw_short hshort
    obtain ⟨st', hread', hcode'⟩ := requireComplete_short
      (d := (decode k : Decoder Status UInt32)) (Decoder.bind_error hread _) hcode
    exact ⟨st', Decoder.bind_error hread' _, hcode'⟩
  · -- inside the payload
    have hshort : ((encode v).take (n - 8)).length < length.toInt.toNat := by
      rw [hlength, length_cast hv, List.length_take]
      omega
    obtain ⟨st, hread, hcode⟩ := k.readRaw_short hshort
    obtain ⟨st', hread', hcode'⟩ := requireComplete_short hread hcode
    rw [List.take_append, List.take_of_length_le (by rw [length_encode_uint32]; omega), length_encode_uint32,
      show n - 4 - 4 = n - 8 by omega]
    exact ⟨st', (Decoder.bind_ok (requireComplete_decodes (exact_uint32 crc k) _) _).trans
      (Decoder.bind_error hread' _), hcode'⟩

end

end Framed

end AdvisKV.Wire
