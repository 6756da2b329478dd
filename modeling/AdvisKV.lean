import AdvisKV.Group.Safety
import AdvisKV.Meta.IndexExact
import AdvisKV.Meta.Removal
import AdvisKV.Meta.Reports
import AdvisKV.Meta.Retire
import AdvisKV.Meta.Routes
import AdvisKV.Model.PersistCodecs
import AdvisKV.Raft.Probing
import AdvisKV.Raft.Timeout
import AdvisKV.Recovery.Recovering
import AdvisKV.Recovery.ShortBursts
import AdvisKV.Replica.FailedCall
import AdvisKV.Replica.Idempotent
import AdvisKV.Replica.RequestIndex
import AdvisKV.Sdk.Routing
import AdvisKV.Snapshot.FileCodec
import AdvisKV.Snapshot.Inflight
import AdvisKV.Snapshot.Publish
import AdvisKV.Snapshot.Transfer
import AdvisKV.Storage.Isolation
