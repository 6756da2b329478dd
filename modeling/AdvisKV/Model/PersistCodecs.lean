import AdvisKV.Meta.Types
import AdvisKV.Model.SnapshotFile

/-!
# AdvisKV — every type that is stored

Besides the log entries, snapshot headers and request records of the other files, a replica stores its term and
vote (`RaftMeta`) and what it was created with (`ReplicaMetaPayload`, without the runtime options, which whoever
loads it puts in). Lists of members stand behind their number, which is cast to `int32` as the length of a string
is: a list of `2 ^ 31` members or more is written with a count that cannot be read back.

Main results:

* `PersistedType` — the registered types as one family.
* `persisted_round_trip` — what is written is read back in front of anything, and says where it ends.
-/

namespace AdvisKV.Wire

/-! ## Records -/

instance : BinaryCodec Bool where
  encode v := [if v then 1 else 0]
  decode k := do
    let raw ← k.readRaw 1
    pure (raw != [0])

def castEngineType : Nat → Meta.EngineType := fun _ => .map

instance : BinaryCodec Meta.EngineType where
  encode _ := encode (Int32.ofNat 0)
  decode := decodeEnum 0 castEngineType "invalid engine type"

structure RaftMeta where
  currentTerm : Int64 := 0
  votedFor : Option ReplicaID := none
deriving DecidableEq

structure ReplicaRuntimeOptions where
  dataDir : Bytes := []
  raftRpcTimeoutMs : Int32 := 1000
  raftDoSnapshotLimit : Int32 := 1000
deriving DecidableEq

/-- `ReplicaMetaPayload`: a `ReplicaInitParam`. -/
structure ReplicaMetaPayload where
  replicaId : ReplicaID := {}
  engineType : Meta.EngineType := .map
  localEndpoint : Endpoint := {}
  members : List PeerMember := []
  runtime : ReplicaRuntimeOptions := {}
deriving DecidableEq

instance : BinaryCodec RaftMeta where
  encode v := encode v.currentTerm ++ (encode v.votedFor.isSome ++ match v.votedFor with
    | some replicaId => encode replicaId
    | none => [])
  decode k := do
    let currentTerm ← decode k
    let hasVotedFor : Bool ← decode k
    if hasVotedFor then
      let replicaId ← decode k
      pure { currentTerm, votedFor := some replicaId }
    else pure { currentTerm, votedFor := none }

/-- The runtime options are not written, and read as their defaults. -/
instance : BinaryCodec ReplicaMetaPayload where
  encode v := encode v.replicaId ++ (encode v.engineType ++ (encode v.localEndpoint ++
    (encode (Int32.ofNat v.members.length) ++ v.members.flatMap encode)))
  decode k := do
    let replicaId ← decode k
    let engineType ← decode k
    let localEndpoint ← decode k
    let memberCount : Int32 ← decode k
    ensure (0 ≤ memberCount) ⟨.error, "invalid replica member count: " ++ toString memberCount.toInt⟩
    let members ← Decoder.times (decode k) memberCount.toInt.toNat
    pure { replicaId, engineType, localEndpoint, members }

theorem exact_bool (v : Bool) : Exact v := by
  intro k
  have hraw := (k.readRaw_decodes [if v then 1 else 0]).map fun raw => raw != [0]
  have hvalue : (([if v then 1 else 0] : Bytes) != [0]) = v := by cases v <;> rfl
  rw [hvalue] at hraw
  exact hraw

theorem exact_engineType (t : Meta.EngineType) : Exact t := by
  intro k
  cases t
  exact decodeEnum_decodes le_rfl (by decide) castEngineType "invalid engine type" k

theorem exact_raftMeta (v : RaftMeta) : Exact v := by
  intro k
  obtain ⟨term, vote⟩ := v
  refine (exact_int64 term k).bind ?_
  rcases vote with _ | replicaId
  · exact (exact_bool false k).bind (Decoder.Decodes.pure _)
  · refine (exact_bool true k).bind ?_
    exact (exact_replicaID replicaId k).map fun vote => ({ currentTerm := term, votedFor := some vote } : RaftMeta)

structure ReplicaMetaPayload.Fits (v : ReplicaMetaPayload) : Prop where
  localEndpoint : v.localEndpoint.ip.length < 2 ^ 31
  count : v.members.length < 2 ^ 31
  members : ∀ m ∈ v.members, m.Fits

theorem decodes_replicaMetaPayload {v : ReplicaMetaPayload} (h : v.Fits) (k : BinaryReader) :
    (decode k : Decoder Status ReplicaMetaPayload).Decodes (encode v) { v with runtime := {} } := by
  have hmembers := members_decodes h.count (fun m hm => exact_peerMember (h.members m hm)) k
  have hcount := ensure_decodes (decide_eq_true (nonneg_ofNat_int32 h.count))
    ⟨.error, "invalid replica member count: " ++ toString (Int32.ofNat v.members.length).toInt⟩
  refine (exact_replicaID v.replicaId k).bind ?_
  refine (exact_engineType v.engineType k).bind ?_
  refine (exact_endpoint h.localEndpoint k).bind ?_
  refine (exact_int32 _ k).bind ?_
  exact hcount.bind (hmembers.map fun members => { v with members, runtime := {} })

/-! ## The family -/

/-- The types with a `BinaryCodec`. -/
inductive PersistedType where
  | int32 | int64 | uint32 | uint64 | bool | string
  | raftMemberType | engineType | writeOpType
  | endpoint | replicaID | peerMember | raftMember | logEntry
  | raftMeta | replicaMetaPayload | snapshotHeader | requestRecord

namespace PersistedType

def Value : PersistedType → Type
  | int32 => Int32
  | int64 => Int64
  | uint32 => UInt32
  | uint64 => UInt64
  | bool => Bool
  | string => Bytes
  | raftMemberType => RaftMemberType
  | engineType => Meta.EngineType
  | writeOpType => WriteOpType
  | endpoint => Endpoint
  | replicaID => ReplicaID
  | peerMember => PeerMember
  | raftMember => RaftMember
  | logEntry => LogEntry
  | raftMeta => RaftMeta
  | replicaMetaPayload => ReplicaMetaPayload
  | snapshotHeader => SnapshotHeader
  | requestRecord => RequestRecord

instance (ty : PersistedType) : BinaryCodec ty.Value :=
  match ty with
  | int32 => inferInstanceAs (BinaryCodec Int32)
  | int64 => inferInstanceAs (BinaryCodec Int64)
  | uint32 => inferInstanceAs (BinaryCodec UInt32)
  | uint64 => inferInstanceAs (BinaryCodec UInt64)
  | bool => inferInstanceAs (BinaryCodec Bool)
  | string => inferInstanceAs (BinaryCodec Bytes)
  | raftMemberType => inferInstanceAs (BinaryCodec RaftMemberType)
  | engineType => inferInstanceAs (BinaryCodec Meta.EngineType)
  | writeOpType => inferInstanceAs (BinaryCodec WriteOpType)
  | endpoint => inferInstanceAs (BinaryCodec Endpoint)
  | replicaID => inferInstanceAs (BinaryCodec ReplicaID)
  | peerMember => inferInstanceAs (BinaryCodec PeerMember)
  | raftMember => inferInstanceAs (BinaryCodec RaftMember)
  | logEntry => inferInstanceAs (BinaryCodec LogEntry)
  | raftMeta => inferInstanceAs (BinaryCodec RaftMeta)
  | replicaMetaPayload => inferInstanceAs (BinaryCodec ReplicaMetaPayload)
  | snapshotHeader => inferInstanceAs (BinaryCodec SnapshotHeader)
  | requestRecord => inferInstanceAs (BinaryCodec RequestRecord)

/-- Strings shorter than `2 ^ 31` bytes, and lists shorter than `2 ^ 31` members. -/
def Fits : (ty : PersistedType) → ty.Value → Prop
  | string, (v : Bytes) => v.length < 2 ^ 31
  | endpoint, (v : Endpoint) => v.ip.length < 2 ^ 31
  | peerMember, (v : PeerMember) => v.Fits
  | raftMember, (v : RaftMember) => v.peer.Fits
  | logEntry, (v : LogEntry) => v.Fits
  | replicaMetaPayload, (v : ReplicaMetaPayload) => v.Fits
  | snapshotHeader, (v : SnapshotHeader) => v.Fits
  | requestRecord, (v : RequestRecord) => v.Fits
  | _, _ => True

/-- What of a value is stored: all of it but the runtime options. -/
def stored : (ty : PersistedType) → ty.Value → ty.Value
  | replicaMetaPayload, (v : ReplicaMetaPayload) => { v with runtime := {} }
  | _, v => v

theorem decodes_stored (ty : PersistedType) {v : ty.Value} (hv : ty.Fits v) (k : BinaryReader) :
    (decode k : Decoder Status ty.Value).Decodes (encode v) (ty.stored v) := by
  cases ty with
  | int32 => exact exact_int32 v k
  | int64 => exact exact_int64 v k
  | uint32 => exact exact_uint32 v k
  | uint64 => exact exact_uint64 v k
  | bool => exact exact_bool v k
  | string => exact exact_bytes hv k
  | raftMemberType => exact exact_memberType v k
  | engineType => exact exact_engineType v k
  | writeOpType => exact exact_writeOpType v k
  | endpoint => exact exact_endpoint hv k
  | replicaID => exact exact_replicaID v k
  | peerMember => exact exact_peerMember hv k
  | raftMember => exact exact_raftMember hv k
  | logEntry => exact exact_logEntry hv k
  | raftMeta => exact exact_raftMeta v k
  | replicaMetaPayload => exact decodes_replicaMetaPayload hv k
  | snapshotHeader => exact exact_snapshotHeader hv k
  | requestRecord => exact exact_requestRecord hv k

end PersistedType

/-- **Every stored value** is read back as it was written, whatever follows, and what follows is left unread. So
no two streams that begin with different values are the same. -/
theorem persisted_round_trip (ty : PersistedType) {v : ty.Value} (hv : ty.Fits v) (rest : Bytes) :
    (∀ k : BinaryReader, (decode k : Decoder Status ty.Value) (encode v ++ rest) = .ok (ty.stored v, rest)) ∧
      ∀ w : ty.Value, ty.Fits w → ∀ rest', encode v ++ rest = encode w ++ rest' →
        ty.stored v = ty.stored w ∧ rest = rest' := by
  refine ⟨fun k => ty.decodes_stored hv k rest, ?_⟩
  intro w hw rest' hsame
  have hread := ty.decodes_stored hv .buffer rest
  rw [hsame, ty.decodes_stored hw .buffer rest'] at hread
  obtain ⟨hvalue, hrest⟩ := Prod.mk.inj (Except.ok.inj hread)
  exact ⟨hvalue.symm, hrest.symm⟩

/-- A header of two members, with a request record behind it. -/
theorem header_read_before_record :
    ∃ (header : SnapshotHeader) (record : RequestRecord), header.members.length = 2 ∧
      (decode .buffer : Decoder Status SnapshotHeader) (encode header ++ encode record) =
        .ok (header, encode record) := by
  let header : SnapshotHeader :=
    { applyIndex := 7, applyTerm := 2
      members := [{ peer := { nodeId := [1] }, memberType := .voter }, { memberType := .learner }] }
  have hfits : header.Fits := by
    refine ⟨by decide, ?_⟩
    intro m hm
    rcases List.mem_cons.mp hm with rfl | hm
    · exact ⟨by decide, by decide⟩
    · rw [List.mem_singleton.mp hm]
      exact ⟨by decide, by decide⟩
  let record : RequestRecord := { requestId := [1], op := .put }
  exact ⟨header, record, rfl, (persisted_round_trip .snapshotHeader hfits (encode record)).1 .buffer⟩

/-- A header whose number of members does not fit cannot be read, whatever the members are. -/
theorem decode_crowded_header {v : SnapshotHeader} (h : Int32.ofNat v.members.length < 0) (k : BinaryReader)
    (rest : Bytes) :
    (decode k : Decoder Status SnapshotHeader) (encode v ++ rest) = .error
      ⟨.error, "invalid snapshot member count: " ++ toString (Int32.ofNat v.members.length).toInt⟩ := by
  have hsplit : encode v ++ rest = encode v.applyIndex ++ (encode v.applyTerm ++
      (encode (Int32.ofNat v.members.length) ++ (v.members.flatMap encode ++ rest))) := by
    show (encode v.applyIndex ++ (encode v.applyTerm ++ (encode (Int32.ofNat v.members.length) ++
      v.members.flatMap encode))) ++ rest = _
    simp only [List.append_assoc]
  rw [hsplit]
  refine (Decoder.bind_ok (exact_int64 v.applyIndex k _) _).trans ?_
  refine (Decoder.bind_ok (exact_int64 v.applyTerm k _) _).trans ?_
  refine (Decoder.bind_ok (exact_int32 (Int32.ofNat v.members.length) k _) _).trans ?_
  refine Decoder.bind_error ?_ _
  unfold ensure
  rw [if_neg]
  · rfl
  · simpa using h

/-- `2 ^ 31` members, none with a long string. -/
theorem crowded_header_unreadable :
    ∃ v : SnapshotHeader, (∀ m ∈ v.members, m.peer.Fits) ∧ v.members.length = 2 ^ 31 ∧
      ∀ k rest, ∃ st, (decode k : Decoder Status SnapshotHeader) (encode v ++ rest) = .error st := by
  refine ⟨{ members := List.replicate (2 ^ 31) {} }, ?_, List.length_replicate, ?_⟩
  · intro m hm
    rw [List.eq_of_mem_replicate hm]
    exact ⟨by decide, by decide⟩
  · intro k rest
    refine ⟨_, decode_crowded_header ?_ k rest⟩
    rw [List.length_replicate]
    decide

end AdvisKV.Wire
