import AdvisKV.Model.ReplicaLoop
import Mathlib.Logic.Equiv.List
import Mathlib.Tactic.DeriveEncodable

/-!
# AdvisKV — a snapshot file format for worked examples

The results about runs hold for every `SnapshotCodec`. A run that is executed step by step needs one: any
way to number snapshots gives a format in which a file is told apart by its length, and one snapshot of
choice can be the empty file.
-/

namespace AdvisKV

instance encodableUInt8 : Encodable UInt8 :=
  Encodable.ofLeftInjection UInt8.toNat (fun n => some (UInt8.ofNat n)) (by simp)

instance encodableUInt64 : Encodable UInt64 :=
  Encodable.ofLeftInjection UInt64.toNat (fun n => some (UInt64.ofNat n)) (by simp)

instance encodableChar : Encodable Char :=
  Encodable.ofLeftInjection Char.toNat (fun n => some (Char.ofNat n)) (by simp)

instance encodableString : Encodable String :=
  Encodable.ofLeftInjection String.toList (fun l => some (String.ofList l)) (by simp)

deriving instance Encodable for StatusCode
deriving instance Encodable for Status
deriving instance Encodable for WriteOpType
deriving instance Encodable for RequestRecord
deriving instance Encodable for Endpoint
deriving instance Encodable for ReplicaID
deriving instance Encodable for PeerMember
deriving instance Encodable for RaftMemberType
deriving instance Encodable for RaftMember
deriving instance Encodable for SnapshotHeader
deriving instance Encodable for SnapshotData

/-- `chosen` is the empty file; any other snapshot is a file one byte longer than its number. -/
def sampleCodec (chosen : SnapshotData) : SnapshotCodec where
  encode d := if d = chosen then [] else List.replicate (Encodable.encode d + 1) 0
  decode bytes :=
    if bytes = [] then .ok chosen
    else match Encodable.decode (bytes.length - 1) with
      | some d => .ok d
      | none => .error ⟨.error, "invalid snapshot file"⟩
  decode_encode d := by
    by_cases h : d = chosen
    · simp [h]
    · simp [h]

end AdvisKV
