import AdvisKV.Model.SampleCodec
import AdvisKV.Snapshot.Transparency

/-!
# AdvisKV — the snapshot format of the replica loop

The results about runs are stated for every `SnapshotCodec`, a format in which every snapshot is read back from its
file. The format of `write_snapshot_to_file` is one, up to the range of its 32-bit lengths and counts: `fileCodec`
writes the bytes of the source for every snapshot in that range and reads as the source does.

A snapshot out of range has no file in that format. `fileCodec` gives it a file of zeros, which the source refuses,
so that a run in which every snapshot is in range is a run with the files of the source.
-/

namespace AdvisKV.Wire

/-- `write_snapshot_to_file` takes the snapshot, and its lengths and counts are in range. -/
structure Writable (d : AdvisKV.SnapshotData) (members : List RaftMember) : Prop where
  fits : FitsModel d members
  members_eq : members.map RaftMember.toModel = d.header.members
  named : ∀ r ∈ d.requestRecords, r.requestId ≠ []
  writes : ∀ r ∈ d.requestRecords, r.op.isKvWriteOp = true

theorem RaftMember.toModel_injective : Function.Injective RaftMember.toModel := by
  rintro ⟨⟨node, ⟨table, shard, seq⟩, ⟨ip, port⟩⟩, type⟩ ⟨⟨node', ⟨table', shard', seq'⟩, ⟨ip', port'⟩⟩, type'⟩ h
  simp only [toModel, PeerMember.toModel, ReplicaID.toModel, Endpoint.toModel, AdvisKV.RaftMember.mk.injEq,
    AdvisKV.PeerMember.mk.injEq, AdvisKV.ReplicaID.mk.injEq, AdvisKV.Endpoint.mk.injEq, Int32.toInt_inj] at h
  obtain ⟨⟨rfl, ⟨rfl, rfl, rfl⟩, rfl, rfl⟩, rfl⟩ := h
  rfl

/-- A file of zeros. -/
def blank (file : Bytes) : Bool := file.all (· == 0)

theorem blank_sample (chosen d : AdvisKV.SnapshotData) : blank ((sampleCodec chosen).encode d) = true := by
  unfold sampleCodec
  dsimp only
  split <;> simp [blank]

namespace Writable

variable {d : AdvisKV.SnapshotData} {members : List RaftMember} (h : Writable d members)
include h

/-- Without empty request ids the file is written. -/
theorem file_eq : SnapshotStore.writeSnapshotToFile (.ofModel d) members =
    (.OK, SnapshotStore.snapshotFile (.ofModel d) members) := by
  refine SnapshotStore.writeSnapshotToFile_eq (fun r hr => ?_) members
  obtain ⟨x, hx, rfl⟩ := List.mem_map.mp hr
  exact h.named x hx

/-- What was written is read back. -/
theorem readSnapshot (path : String) :
    readSnapshot path (SnapshotStore.writeSnapshotToFile (.ofModel d) members).2 = .ok d := by
  rw [h.file_eq, readSnapshot_written h.fits h.writes path, h.members_eq]

/-- The magic number tells a file from zeros. -/
theorem not_blank : blank (SnapshotStore.writeSnapshotToFile (.ofModel d) members).2 = false := by
  rw [h.file_eq]
  rfl

end Writable

open Classical in
/-- The file format as a `SnapshotCodec`. -/
noncomputable def fileCodec (path : String) : SnapshotCodec where
  encode d :=
    if h : ∃ members, Writable d members then (SnapshotStore.writeSnapshotToFile (.ofModel d) h.choose).2
    else (sampleCodec {}).encode d
  decode file := if blank file then (sampleCodec {}).decode file else readSnapshot path file
  decode_encode d := by
    split
    · next h => rw [if_neg (by simp [h.choose_spec.not_blank]), h.choose_spec.readSnapshot path]
    · rw [if_pos (blank_sample {} d), (sampleCodec {}).decode_encode]

/-- **The files of a snapshot in range** are those of the source. -/
theorem fileCodec_encode (path : String) {d : AdvisKV.SnapshotData} {members : List RaftMember}
    (h : Writable d members) :
    (fileCodec path).encode d = (SnapshotStore.writeSnapshotToFile (.ofModel d) members).2 := by
  have hex : ∃ members, Writable d members := ⟨members, h⟩
  have hsame : hex.choose = members :=
    RaftMember.toModel_injective.list_map (hex.choose_spec.members_eq.trans h.members_eq.symm)
  exact (dif_pos hex).trans (by rw [hsame])

/-- **Reading** is that of the source but for files of zeros. -/
theorem fileCodec_decode (path : String) {file : Bytes} (h : blank file = false) :
    (fileCodec path).decode file = readSnapshot path file :=
  if_neg (by simp [h])

/-- The source refuses those. -/
theorem readSnapshot_blank (path : String) {file : Bytes} (h : blank file = true) :
    ∃ st, readSnapshot path file = .error st := by
  obtain ⟨n, rfl⟩ : ∃ n, file = List.replicate n 0 :=
    ⟨file.length, List.eq_replicate_iff.mpr ⟨rfl, fun b hb => by simpa using List.all_eq_true.mp h b hb⟩⟩
  have hverify : ∃ st, verifySnapshotFile path (List.replicate n 0) = .error st := by
    unfold verifySnapshotFile
    by_cases hsmall : (List.replicate n (0 : UInt8)).length ≤ kSnapshotTrailerBytes
    · exact ⟨_, by rw [if_pos hsmall]; rfl⟩
    · have htail : (List.replicate n (0 : UInt8)).drop ((List.replicate n (0 : UInt8)).length - kSnapshotTrailerBytes) =
          List.replicate 24 0 := by
        rw [List.drop_replicate, List.length_replicate]
        congr 1
        simp only [List.length_replicate, kSnapshotTrailerBytes] at hsmall ⊢
        omega
      -- the magic number of the trailer is not zero
      have hread : ∃ st, readSnapshotTrailer (.file path) (List.replicate 24 0) = .error st := ⟨_, rfl⟩
      obtain ⟨st, hread⟩ := hread
      refine ⟨st, ?_⟩
      rw [if_neg hsmall, htail, hread]
      rfl
  obtain ⟨st, hverify⟩ := hverify
  refine ⟨st, ?_⟩
  simp only [readSnapshot, SnapshotFileReader.openReader, hverify]
  rfl

end AdvisKV.Wire
