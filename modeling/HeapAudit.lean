import HeapAudit.Audit.Diagnostic
import HeapAudit.Audit.Reachability
import HeapAudit.Audit.Report
import HeapAudit.Audit.Validation
import HeapAudit.Bytes.LittleEndian
import HeapAudit.Cbor.Item
import HeapAudit.Cbor.Reader
import HeapAudit.Cbor.Writer
import HeapAudit.Data.WordMap
import HeapAudit.Dump.Format
import HeapAudit.Dump.Header
import HeapAudit.Dump.Store
import HeapAudit.Event.Frame
import HeapAudit.Event.Kind
import HeapAudit.Event.Slot
import HeapAudit.Failure
import HeapAudit.Hash.Blake3
import HeapAudit.Hash.XxHash64
import HeapAudit.Heap.Basic
import HeapAudit.Heap.Extent
import HeapAudit.Log.Bank
import HeapAudit.Log.Basic
import HeapAudit.Memory.Page
import HeapAudit.Memory.Protection
import HeapAudit.Memory.Region
import HeapAudit.Offload.Coordinator
import HeapAudit.Offload.Device
import HeapAudit.Recording.Journal
import HeapAudit.Recording.Recorder
import HeapAudit.Recording.Station
import HeapAudit.Replay.Copy
import HeapAudit.Replay.Run
import HeapAudit.Session.Basic
import HeapAudit.Session.Cycle
import HeapAudit.Session.Operations
import HeapAudit.Shadow.Digest
import HeapAudit.Shadow.Table
import HeapAudit.Subsystem
import HeapAudit.Text.Hex
import HeapAudit.Uuid
import HeapAudit.Proofs.Audit.Reflection
import HeapAudit.Proofs.Cbor.RoundTrip
import HeapAudit.Proofs.Dump.Robustness
import HeapAudit.Proofs.Dump.RoundTrip
import HeapAudit.Proofs.Log.Content
import HeapAudit.Proofs.Log.Layout
import HeapAudit.Proofs.Log.Regions
import HeapAudit.Proofs.Recording.Erasure
import HeapAudit.Proofs.Recording.Overflow
import HeapAudit.Proofs.Replay.Effect
import HeapAudit.Proofs.Session.Chronicle
import HeapAudit.Proofs.Session.ExactlyOnce
import HeapAudit.Proofs.Session.Soundness
import HeapAudit.Proofs.Replay.LogOrder
import HeapAudit.Proofs.Replay.SinglePass
import HeapAudit.Proofs.Replay.Eviction
import HeapAudit.Proofs.Recording.Framing
import HeapAudit.Proofs.Replay.Idempotence
import HeapAudit.Proofs.Recording.Buffer
import HeapAudit.Proofs.Session.Offline
import HeapAudit.Proofs.Replay.ArrayCopy
import HeapAudit.Proofs.Heap.Geometry
import HeapAudit.Proofs.Shadow.Catalog
import HeapAudit.Proofs.Offload.HandOver
import HeapAudit.Proofs.Replay.ObjectCopy
import HeapAudit.Proofs.Replay.FieldSets
import HeapAudit.Proofs.Replay.Renaming
import HeapAudit.Proofs.Audit.Marking
import HeapAudit.Proofs.Audit.Verdict
import HeapAudit.Proofs.Replay.Accounting
import HeapAudit.Proofs.Log.Capacity
import HeapAudit.Proofs.Heap.Survival
import HeapAudit.Proofs.Recording.GuardPages
import HeapAudit.Proofs.Recording.Checks
import HeapAudit.Proofs.Dump.Truncation
import HeapAudit.Proofs.Dump.Exactness
import HeapAudit.Proofs.Shadow.Fingerprint
import HeapAudit.Proofs.Shadow.Recycling
import HeapAudit.Proofs.Shadow.PlainMap
import HeapAudit.Proofs.Offload.Buffers
import HeapAudit.Proofs.Bytes.LittleEndian
