import AdvisKV.Model.RaftCore
import AdvisKV.Model.StateMachine

/-!
# AdvisKV — applying committed entries

`ReplicaLoop::apply_one_entry` and `apply_committed_entries_inline`: after every dispatch the loop pulls
batches of committed entries out of the core and hands each entry to the state machine, until a batch
says nothing is left.
-/

namespace AdvisKV

def replicaInlineApplyBatchSize : Nat := 256

/-- The two components an apply changes. `passed` is bookkeeping: the entries handed to
`StateMachine::apply` so far, in order. -/
structure ApplyState where
  core : RaftCore
  stateMachine : KvStateMachine
  passed : List LogEntry := []

namespace ApplyState

/-- A call of `StateMachine::apply`. -/
def pass (s : ApplyState) (entry : LogEntry) : Status × ApplyState :=
  let r := s.stateMachine.apply entry
  (r.1, { s with stateMachine := r.2, passed := s.passed ++ [entry] })

/-- `apply_one_entry`: a config entry changes the core before the state machine sees it. -/
def applyOneEntry (s : ApplyState) (entry : LogEntry) : Status × ApplyState :=
  if entry.opType.isConfigChangeOp then
    let r := s.core.applyConfigEntry entry
    if r.1.fail then (r.1, s) else { s with core := r.2 }.pass entry
  else
    let r := s.pass entry
    if r.1.fail then r
    else (.OK, { r.2 with core := r.2.core.advanceLastApplied entry.index })

/-- The `for` loop over one batch: the first failure ends it. -/
def applyBatch (s : ApplyState) : List LogEntry → Status × ApplyState
  | [] => (.OK, s)
  | entry :: rest =>
    let r := s.applyOneEntry entry
    if r.1.fail then r else r.2.applyBatch rest

/-- The `while (true)` loop, cut off after `fuel` rounds. -/
def applyRounds : Nat → ApplyState → Option (Status × ApplyState)
  | 0, _ => none
  | fuel + 1, s =>
    let batch := s.core.raftApply.extractCommittedEntries s.core.raftLog
      replicaInlineApplyBatchSize 0
    if batch.1 = [] then some (.OK, s)
    else
      let r := s.applyBatch batch.1
      if r.1.fail then some r
      else if !batch.2 then some (.OK, r.2)
      else applyRounds fuel r.2

/-- `apply_committed_entries_inline`. Every round but the last applies an entry, so one round per
outstanding entry and one to notice the end are enough. -/
def applyCommittedEntriesInline (s : ApplyState) : Option (Status × ApplyState) :=
  applyRounds (s.core.raftApply.commitIndex - s.core.raftApply.lastApplied + 1) s

end ApplyState

end AdvisKV
