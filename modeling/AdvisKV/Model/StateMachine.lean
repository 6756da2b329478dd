import AdvisKV.Model.Types

/-!
# AdvisKV — the key-value state machine

`MapEngine` and `KvStateMachine`: the map, the request records that make a write idempotent, and the
index and term of the last applied entry. A failed compare-and-set is a successful apply whose outcome
is kept in the request record.
-/

namespace AdvisKV

/-- The engine's map as an association list: `lookup` finds the current binding. -/
structure MapEngine where
  entries : List (Key × Value) := []
deriving DecidableEq, Repr

namespace MapEngine

def get (m : MapEngine) (key : Key) : Option Value := m.entries.lookup key

def del (m : MapEngine) (key : Key) : MapEngine := ⟨m.entries.filter fun kv => kv.1 != key⟩

def put (m : MapEngine) (key : Key) (value : Value) : MapEngine :=
  ⟨(key, value) :: (m.del key).entries⟩

def dumpAll (m : MapEngine) : List (Key × Value) := m.entries

end MapEngine

structure KvStateMachine where
  engine : MapEngine := {}
  requestRecords : List RequestRecord := []
  applyIndex : Nat := 0
  applyTerm : Nat := 0
deriving DecidableEq, Repr

namespace KvStateMachine

/-- `find_request`; the source reports an empty or unknown id as a failed status. -/
def findRequest (sm : KvStateMachine) (requestId : Bytes) : Option RequestRecord :=
  if requestId = [] then none else sm.requestRecords.find? fun r => r.requestId == requestId

/-- The write of one entry: the engine after it and the outcome to remember. -/
def execute (engine : MapEngine) (entry : LogEntry) : MapEngine × Status :=
  match entry.opType with
  | .put => (engine.put entry.key entry.value, .OK)
  | .del => (engine.del entry.key, .OK)
  | .cas =>
    match engine.get entry.key with
    | none => (engine, ⟨.keyNotFound, ""⟩)
    | some current =>
      if current ≠ entry.expected then (engine, ⟨.conditionNotMet, ""⟩)
      else (engine.put entry.key entry.value, .OK)
  | _ => (engine, .OK)

/-- `request_records_.emplace`: an id that is already recorded keeps its record. -/
def record (sm : KvStateMachine) (entry : LogEntry) (applyStatus : Status) : List RequestRecord :=
  if (sm.findRequest entry.requestId).isSome then sm.requestRecords
  else sm.requestRecords ++
    [{ requestId := entry.requestId
       op := entry.opType
       payloadHash := requestPayloadHash entry.opType entry.key entry.value entry.expected
       applyStatus }]

def apply (sm : KvStateMachine) (entry : LogEntry) : Status × KvStateMachine :=
  if entry.requestId ≠ [] && !entry.opType.isKvWriteOp then
    (⟨.invalidArgument, "request_id is only valid for PUT, DEL or CAS"⟩, sm)
  else if (sm.findRequest entry.requestId).isSome then
    (.OK, { sm with applyTerm := entry.term, applyIndex := entry.index })
  else
    let r := execute sm.engine entry
    (.OK,
      { engine := r.1
        requestRecords :=
          if entry.requestId ≠ [] && entry.opType.isKvWriteOp then sm.record entry r.2
          else sm.requestRecords
        applyTerm := entry.term
        applyIndex := entry.index })

def get (sm : KvStateMachine) (key : Key) : Option Value := sm.engine.get key

/-- `capture_snapshot`; the header's members are filled in by the caller. -/
def captureSnapshot (sm : KvStateMachine) : SnapshotData :=
  { header := { applyIndex := sm.applyIndex, applyTerm := sm.applyTerm }
    kvs := sm.engine.dumpAll
    requestRecords := sm.requestRecords }

/-- `restore`: rebuild the map and the records from a snapshot; a record without an id is refused. -/
def restore (snapshot : SnapshotData) : Except Status KvStateMachine :=
  if snapshot.requestRecords.any fun r => r.requestId == [] then
    .error ⟨.invalidArgument, "snapshot contains an empty request_id"⟩
  else
    .ok
      { engine := snapshot.kvs.foldl (fun m kv => m.put kv.1 kv.2) {}
        requestRecords := snapshot.requestRecords.foldl
          (fun rs r => rs.filter (fun x => x.requestId != r.requestId) ++ [r]) []
        applyIndex := snapshot.header.applyIndex
        applyTerm := snapshot.header.applyTerm }

end KvStateMachine

end AdvisKV
