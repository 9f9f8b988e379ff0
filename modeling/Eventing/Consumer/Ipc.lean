import Eventing.Flatbuffers.Vectors
import Eventing.Go

/-! # Frames for the worker

The consumer drives its worker process over a socket. Every message is a
header frame and a payload frame, flatbuffers built by the `make…` functions of
the consumer on a builder that `getBuilder` hands out. The header carries the
event, the opcode, the partition and a metadata string; the payload carries the
fields of one opcode. This module models the header and the payloads with
strings and scalars, and the frames as the worker reads them through the
generated accessors. Every such frame reads back as it was made as long as it
fits in the gigabyte to which `growByteBuffer` always lets the builder grow; a
string of two gigabytes makes the builder panic instead.

## Implementation notes

The generated `header` and `payload` packages are not among the sources. A
generated `…Add…` call is a `FieldWrite`, its slot and default taken from the
schema. The slots of `Header` follow the order in which the spec lists its
fields. The `Payload` schema is a `PayloadSchema`, constrained only to give its
fields distinct slots below its `numfields`. `getBuilder` is not among the
sources either; it hands out a builder after `Reset`, of any capacity. A Go
string is its bytes; `int8`, `int16`, `int32` and `int64` values are bit
vectors of their width, a Go `int` is an integer, and a conversion to a
narrower integer keeps the low bits.
-/

namespace Eventing.Ipc

open Flatbuffers Builder

/-! ## The header -/

/-- `HeaderAddEvent`, `HeaderAddOpcode`, `HeaderAddPartition` and `HeaderAddMetadata`.
Modelled from the spec: the fields of `Header`, `event:int8`, `opcode:int8`, `partition:int16`
and `metadata:string`, in slots `0` to `3`, the scalars with default `0`. -/
def headerFields (event opcode : BitVec 8) (partition : BitVec 16) (metadata : Nat) : List FieldWrite :=
  [.scalar 0 1 event.toNat 0, .scalar 1 1 opcode.toNat 0, .scalar 2 2 partition.toNat 0, .offset 3 metadata]

/-- `makeHeader(event, opcode, partition, meta)` on the builder `b` from `getBuilder`: the
encoded header. `HeaderStart` is `StartObject(4)` and `HeaderEnd` is `EndObject()`. -/
def makeHeader (event opcode : BitVec 8) (partition : BitVec 16) (meta : List UInt8) (b : Builder) :
    Option (List UInt8) := do
  let (b, metadata) ← b.createString meta
  let b ← b.startObject 4
  let b ← addFields (headerFields event opcode partition metadata) b
  let (b, headerPos) ← b.endObject
  let b ← b.finish headerPos
  b.finishedBytes

/-- A header as the worker reads it. -/
structure Header where
  event : BitVec 8
  opcode : BitVec 8
  partition : BitVec 16
  metadata : List UInt8
  deriving DecidableEq, Repr

/-- `GetRootAsHeader(buf, 0)` and the accessors `Event()`, `Opcode()`, `Partition()` and
`Metadata()`. -/
def decodeHeader (buf : List UInt8) : Option Header := do
  let t ← getRoot buf
  return ⟨BitVec.ofNat 8 (← t.scalarField 1 0 0), BitVec.ofNat 8 (← t.scalarField 1 1 0),
    BitVec.ofNat 16 (← t.scalarField 2 2 0), ← t.bytesField 3⟩

/-! ## The header makers -/

/-- The event constants of the source's `iota` block that the header makers use. -/
def dcpEvent : BitVec 8 := 1
def v8WorkerEvent : BitVec 8 := 3
def appWorkerSetting : BitVec 8 := 4
def timerEvent : BitVec 8 := 5
def debuggerEvent : BitVec 8 := 6

/-- The opcode constants, each the position in its own `iota` block. -/
def startDebug : BitVec 8 := 1
def stopDebug : BitVec 8 := 2
def docTimer : BitVec 8 := 1
def nonDocTimer : BitVec 8 := 2
def v8WorkerInit : BitVec 8 := 2
def v8WorkerLoad : BitVec 8 := 3
def v8WorkerCompile : BitVec 8 := 10
def dcpDeletion : BitVec 8 := 1
def dcpMutation : BitVec 8 := 2
def logLevel : BitVec 8 := 1
def workerThreadCount : BitVec 8 := 2
def workerThreadPartitionMap : BitVec 8 := 3

def makeDocTimerEventHeader (partition : BitVec 16) (b : Builder) : Option (List UInt8) :=
  makeHeader timerEvent docTimer partition [] b

def makeNonDocTimerEventHeader (partition : BitVec 16) (b : Builder) : Option (List UInt8) :=
  makeHeader timerEvent nonDocTimer partition [] b

def makeDcpHeader (opcode : BitVec 8) (partition : BitVec 16) (meta : List UInt8) (b : Builder) :
    Option (List UInt8) :=
  makeHeader dcpEvent opcode partition meta b

def makeDcpMutationHeader (partition : BitVec 16) (mutationMeta : List UInt8) (b : Builder) :
    Option (List UInt8) :=
  makeDcpHeader dcpMutation partition mutationMeta b

def makeDcpDeletionHeader (partition : BitVec 16) (deletionMeta : List UInt8) (b : Builder) :
    Option (List UInt8) :=
  makeDcpHeader dcpDeletion partition deletionMeta b

def makeV8DebuggerHeader (opcode : BitVec 8) (meta : List UInt8) (b : Builder) : Option (List UInt8) :=
  makeHeader debuggerEvent opcode 0 meta b

def makeV8DebuggerStartHeader (b : Builder) : Option (List UInt8) := makeV8DebuggerHeader startDebug [] b

def makeV8DebuggerStopHeader (b : Builder) : Option (List UInt8) := makeV8DebuggerHeader stopDebug [] b

def makeV8EventHeader (opcode : BitVec 8) (meta : List UInt8) (b : Builder) : Option (List UInt8) :=
  makeHeader v8WorkerEvent opcode 0 meta b

def makeV8InitOpcodeHeader (b : Builder) : Option (List UInt8) := makeV8EventHeader v8WorkerInit [] b

def makeV8CompileOpcodeHeader (appCode : List UInt8) (b : Builder) : Option (List UInt8) :=
  makeV8EventHeader v8WorkerCompile appCode b

def makeV8LoadOpcodeHeader (appCode : List UInt8) (b : Builder) : Option (List UInt8) :=
  makeV8EventHeader v8WorkerLoad appCode b

def makeLogLevelHeader (meta : List UInt8) (b : Builder) : Option (List UInt8) :=
  makeHeader appWorkerSetting logLevel 0 meta b

def makeThrCountHeader (meta : List UInt8) (b : Builder) : Option (List UInt8) :=
  makeHeader appWorkerSetting workerThreadCount 0 meta b

def makeThrMapHeader (b : Builder) : Option (List UInt8) :=
  makeHeader appWorkerSetting workerThreadPartitionMap 0 [] b

/-! ## The payload -/

/-- Modelled from the spec: the slots of the `Payload` fields the consumer writes, in a table of
`numfields` slots, and the defaults of its scalar fields. -/
structure PayloadSchema where
  key : Nat
  value : Nat
  docId : Nat
  callbackFn : Nat
  docIdsCallbackFns : Nat
  appName : Nat
  currHost : Nat
  eventingDir : Nat
  currEventingPort : Nat
  depcfg : Nat
  kvHostPort : Nat
  rbacUser : Nat
  rbacPass : Nat
  lcbInstCapacity : Nat
  executionTimeout : Nat
  fuzzOffset : Nat
  checkpointInterval : Nat
  curlTimeout : Nat
  enableRecursiveMutation : Nat
  skipLcbBootstrap : Nat
  thrMap : Nat
  partitionCount : Nat
  lcbInstCapacityDefault : Nat
  executionTimeoutDefault : Nat
  fuzzOffsetDefault : Nat
  checkpointIntervalDefault : Nat
  curlTimeoutDefault : Nat
  enableRecursiveMutationDefault : Nat
  skipLcbBootstrapDefault : Nat
  partitionCountDefault : Nat
  numfields : Nat
  slots_nodup : [key, value, docId, callbackFn, docIdsCallbackFns, appName, currHost, eventingDir,
    currEventingPort, depcfg, kvHostPort, rbacUser, rbacPass, lcbInstCapacity, executionTimeout, fuzzOffset,
    checkpointInterval, curlTimeout, enableRecursiveMutation, skipLcbBootstrap, thrMap, partitionCount].Nodup
  slots_lt : ∀ s ∈ [key, value, docId, callbackFn, docIdsCallbackFns, appName, currHost, eventingDir,
    currEventingPort, depcfg, kvHostPort, rbacUser, rbacPass, lcbInstCapacity, executionTimeout, fuzzOffset,
    checkpointInterval, curlTimeout, enableRecursiveMutation, skipLcbBootstrap, thrMap, partitionCount],
    s < numfields
  numfields_lt : numfields < 2 ^ 14

namespace PayloadSchema

variable (P : PayloadSchema)

/-- The slots of the fields, in the order of the makers that write them. -/
def slots : List Nat :=
  [P.key, P.value, P.docId, P.callbackFn, P.docIdsCallbackFns, P.appName, P.currHost, P.eventingDir,
    P.currEventingPort, P.depcfg, P.kvHostPort, P.rbacUser, P.rbacPass, P.lcbInstCapacity, P.executionTimeout,
    P.fuzzOffset, P.checkpointInterval, P.curlTimeout, P.enableRecursiveMutation, P.skipLcbBootstrap,
    P.thrMap, P.partitionCount]

/-- The schema that numbers the fields in the order of `slots`, scalars with default `0`. -/
def inOrder : PayloadSchema :=
  ⟨0, 1, 2, 3, 4, 5, 6, 7, 8, 9, 10, 11, 12, 13, 14, 15, 16, 17, 18, 19, 20, 21, 0, 0, 0, 0, 0, 0, 0, 0, 22,
    by decide, by decide, by decide⟩

/-- The fields one maker writes lie in a run of consecutive `slots`: distinct slots below
`numfields`. -/
theorem slots_run {fs : List FieldWrite} {i j : Nat} (h : fs.map FieldWrite.slot = (P.slots.take j).drop i) :
    (∀ f ∈ fs, f.slot < P.numfields) ∧ (fs.map FieldWrite.slot).Nodup :=
  ⟨fun _ hf => P.slots_lt _ (List.mem_of_mem_take (List.mem_of_mem_drop (h ▸ List.mem_map_of_mem _ hf))),
    h ▸ P.slots_nodup.sublist ((List.drop_sublist _ _).trans (List.take_sublist _ _))⟩

end PayloadSchema

/-- `PayloadAddKey` and `PayloadAddValue`. -/
def dcpPayloadFields (P : PayloadSchema) (keyPos valPos : Nat) : List FieldWrite :=
  [.offset P.key keyPos, .offset P.value valPos]

/-- `PayloadAddDocId` and `PayloadAddCallbackFn`. -/
def docTimerPayloadFields (P : PayloadSchema) (docIDPos callbackFnPos : Nat) : List FieldWrite :=
  [.offset P.docId docIDPos, .offset P.callbackFn callbackFnPos]

/-- `PayloadAddDocIdsCallbackFns`. -/
def nonDocTimerPayloadFields (P : PayloadSchema) (pPos : Nat) : List FieldWrite :=
  [.offset P.docIdsCallbackFns pPos]

/-- The fifteen `PayloadAdd…` calls of `makeV8InitPayload`, the four `int` settings converted to
`int32`, and the two flags as the bytes `WriteBool` stores. -/
def v8InitPayloadFields (P : PayloadSchema) (app ch ed ep dcfg khp rUser rPass : Nat)
    (capacity executionTimeout fuzzOffset checkpointInterval : Int) (curlTimeout : BitVec 64)
    (enableRecursiveMutation skipLcbBootstrap : Bool) : List FieldWrite :=
  [.offset P.appName app, .offset P.currHost ch, .offset P.eventingDir ed, .offset P.currEventingPort ep,
    .offset P.depcfg dcfg, .offset P.kvHostPort khp, .offset P.rbacUser rUser, .offset P.rbacPass rPass,
    .scalar P.lcbInstCapacity 4 (BitVec.ofInt 32 capacity).toNat P.lcbInstCapacityDefault,
    .scalar P.executionTimeout 4 (BitVec.ofInt 32 executionTimeout).toNat P.executionTimeoutDefault,
    .scalar P.fuzzOffset 4 (BitVec.ofInt 32 fuzzOffset).toNat P.fuzzOffsetDefault,
    .scalar P.checkpointInterval 4 (BitVec.ofInt 32 checkpointInterval).toNat P.checkpointIntervalDefault,
    .scalar P.curlTimeout 8 curlTimeout.toNat P.curlTimeoutDefault,
    .scalar P.enableRecursiveMutation 1 (writeBool enableRecursiveMutation) P.enableRecursiveMutationDefault,
    .scalar P.skipLcbBootstrap 1 (writeBool skipLcbBootstrap) P.skipLcbBootstrapDefault]

/-- `makeDcpPayload(key, value)`. `PayloadStart` is `StartObject(numfields)`. -/
def makeDcpPayload (P : PayloadSchema) (key value : List UInt8) (b : Builder) : Option (List UInt8) := do
  let (b, keyPos) ← b.createByteString key
  let (b, valPos) ← b.createByteString value
  let b ← b.startObject P.numfields
  let b ← addFields (dcpPayloadFields P keyPos valPos) b
  let (b, payloadPos) ← b.endObject
  let b ← b.finish payloadPos
  b.finishedBytes

/-- `makeDocTimerPayload(docID, callbackFn)`. -/
def makeDocTimerPayload (P : PayloadSchema) (docID callbackFn : List UInt8) (b : Builder) :
    Option (List UInt8) := do
  let (b, docIDPos) ← b.createString docID
  let (b, callbackFnPos) ← b.createString callbackFn
  let b ← b.startObject P.numfields
  let b ← addFields (docTimerPayloadFields P docIDPos callbackFnPos) b
  let (b, payloadPos) ← b.endObject
  let b ← b.finish payloadPos
  b.finishedBytes

/-- `makeNonDocTimerPayload(data)`. -/
def makeNonDocTimerPayload (P : PayloadSchema) (data : List UInt8) (b : Builder) : Option (List UInt8) := do
  let (b, pPos) ← b.createString data
  let b ← b.startObject P.numfields
  let b ← addFields (nonDocTimerPayloadFields P pPos) b
  let (b, payloadPos) ← b.endObject
  let b ← b.finish payloadPos
  b.finishedBytes

/-- `makeV8InitPayload(appName, currHost, eventingDir, eventingPort, kvHostPort, depCfg, rbacUser,
rbacPass, capacity, executionTimeout, fuzzOffset, checkpointInterval, enableRecursiveMutation,
skipLcbBootstrap, curlTimeout)`. -/
def makeV8InitPayload (P : PayloadSchema)
    (appName currHost eventingDir eventingPort kvHostPort depCfg rbacUser rbacPass : List UInt8)
    (capacity executionTimeout fuzzOffset checkpointInterval : Int)
    (enableRecursiveMutation skipLcbBootstrap : Bool) (curlTimeout : BitVec 64) (b : Builder) :
    Option (List UInt8) := do
  let some (b, app) := b.createString appName | none
  let some (b, ch) := b.createString currHost | none
  let some (b, ed) := b.createString eventingDir | none
  let some (b, ep) := b.createString eventingPort | none
  let some (b, dcfg) := b.createString depCfg | none
  let some (b, khp) := b.createString kvHostPort | none
  let some (b, rUser) := b.createString rbacUser | none
  let some (b, rPass) := b.createString rbacPass | none
  let some b := b.startObject P.numfields | none
  let some b := addFields (v8InitPayloadFields P app ch ed ep dcfg khp rUser rPass capacity executionTimeout
    fuzzOffset checkpointInterval curlTimeout enableRecursiveMutation skipLcbBootstrap) b | none
  let some (b, msgPos) := b.endObject | none
  let some b := b.finish msgPos | none
  b.finishedBytes

/-- `GetRootAsPayload(buf, 0)`, `Key()` and `Value()`. -/
def decodeDcpPayload (P : PayloadSchema) (buf : List UInt8) : Option (List UInt8 × List UInt8) := do
  let t ← getRoot buf
  return (← t.bytesField P.key, ← t.bytesField P.value)

/-- `DocId()` and `CallbackFn()` of the root `Payload`. -/
def decodeDocTimerPayload (P : PayloadSchema) (buf : List UInt8) : Option (List UInt8 × List UInt8) := do
  let t ← getRoot buf
  return (← t.bytesField P.docId, ← t.bytesField P.callbackFn)

/-- `DocIdsCallbackFns()` of the root `Payload`. -/
def decodeNonDocTimerPayload (P : PayloadSchema) (buf : List UInt8) : Option (List UInt8) := do
  (← getRoot buf).bytesField P.docIdsCallbackFns

/-- The init payload as the worker reads it. -/
structure V8InitPayload where
  appName : List UInt8
  currHost : List UInt8
  eventingDir : List UInt8
  currEventingPort : List UInt8
  depcfg : List UInt8
  kvHostPort : List UInt8
  rbacUser : List UInt8
  rbacPass : List UInt8
  lcbInstCapacity : BitVec 32
  executionTimeout : BitVec 32
  fuzzOffset : BitVec 32
  checkpointInterval : BitVec 32
  curlTimeout : BitVec 64
  enableRecursiveMutation : Bool
  skipLcbBootstrap : Bool
  deriving DecidableEq, Repr

/-- The accessors of the init payload's fields; a flag is set when its byte is not zero. -/
def decodeV8InitPayload (P : PayloadSchema) (buf : List UInt8) : Option V8InitPayload := do
  let some t := getRoot buf | none
  let some appName := t.bytesField P.appName | none
  let some currHost := t.bytesField P.currHost | none
  let some eventingDir := t.bytesField P.eventingDir | none
  let some currEventingPort := t.bytesField P.currEventingPort | none
  let some depcfg := t.bytesField P.depcfg | none
  let some kvHostPort := t.bytesField P.kvHostPort | none
  let some rbacUser := t.bytesField P.rbacUser | none
  let some rbacPass := t.bytesField P.rbacPass | none
  let some lcbInstCapacity := t.scalarField 4 P.lcbInstCapacity P.lcbInstCapacityDefault | none
  let some executionTimeout := t.scalarField 4 P.executionTimeout P.executionTimeoutDefault | none
  let some fuzzOffset := t.scalarField 4 P.fuzzOffset P.fuzzOffsetDefault | none
  let some checkpointInterval := t.scalarField 4 P.checkpointInterval P.checkpointIntervalDefault | none
  let some curlTimeout := t.scalarField 8 P.curlTimeout P.curlTimeoutDefault | none
  let some enableRecursiveMutation :=
    t.scalarField 1 P.enableRecursiveMutation P.enableRecursiveMutationDefault | none
  let some skipLcbBootstrap := t.scalarField 1 P.skipLcbBootstrap P.skipLcbBootstrapDefault | none
  return ⟨appName, currHost, eventingDir, currEventingPort, depcfg, kvHostPort, rbacUser, rbacPass,
    BitVec.ofNat 32 lcbInstCapacity, BitVec.ofNat 32 executionTimeout, BitVec.ofNat 32 fuzzOffset,
    BitVec.ofNat 32 checkpointInterval, BitVec.ofNat 64 curlTimeout, enableRecursiveMutation != 0,
    skipLcbBootstrap != 0⟩

/-! ## The thread map -/

/-- `VbsThreadMapAddPartitions` and `VbsThreadMapAddThreadID`. Modelled from the spec: the fields
of `VbsThreadMap`, `threadId:int16` and `partitions:[uint16]`, in slots `0` and `1`, the thread ID
with default `0`. -/
def vbsThreadMapFields (partitions : Nat) (threadID : BitVec 16) : List FieldWrite :=
  [.offset 1 partitions, .scalar 0 2 threadID.toNat 0]

/-- One turn of the loop of `makeThrMapPayload`: the partitions vector of thread `i`, its
`uint16`s prepended from the first to the last, then the thread's `VbsThreadMap` table, whose
offset it returns. `VbsThreadMapStartPartitionsVector` is `StartVector(2, n, 2)` and
`VbsThreadMapStart` is `StartObject(2)`. -/
def makeVbsThreadMap (vbs : List UInt16) (i : Nat) (b : Builder) : Option (Builder × Nat) := do
  let some b := b.startVector 2 vbs.length 2 | none
  let some b := vbs.foldlM (fun b x => b.prependUint16 x) b | none
  let some (b, partitions) := b.endVector vbs.length | none
  let some b := b.startObject 2 | none
  let some b := addFields (vbsThreadMapFields partitions (BitVec.ofNat 16 i)) b | none
  b.endObject

/-- `PayloadAddThrMap` and `PayloadAddPartitionCount`. -/
def thrMapPayloadFields (P : PayloadSchema) (resMap : Nat) (partitionCount : BitVec 16) : List FieldWrite :=
  [.offset P.thrMap resMap, .scalar P.partitionCount 2 partitionCount.toNat P.partitionCountDefault]

/-- The loop `for i := 0; i < len(thrMap); i++` of `makeThrMapPayload`: the tables of the threads
in order, and `tMaps`, their offsets. -/
def thrMapTables (thrMap : GoMap Int (List UInt16)) (n : Nat) (b : Builder) : Option (Builder × List Nat) :=
  (List.range n).foldlM (fun (b, tMaps) (i : Nat) => do
    let some (b, t) := makeVbsThreadMap (thrMap.index (i : Int)) i b | none
    return (b, tMaps ++ [t])) (b, [])

/-- `makeThrMapPayload(thrMap, partitionCount)`: the thread tables, the `thrMap` vector of their
offsets, prepended from the last to the first, and the payload. `PayloadStartThrMapVector` is
`StartVector(4, n, 4)`. -/
def makeThrMapPayload (P : PayloadSchema) (thrMap : GoMap Int (List UInt16)) (partitionCount : Int)
    (b : Builder) : Option (List UInt8) := do
  let some (b, tMaps) := thrMapTables thrMap thrMap.keys.length b | none
  let some b := b.startVector 4 tMaps.length 4 | none
  let some b := tMaps.reverse.foldlM (fun b u => b.prependUOffsetT u) b | none
  let some (b, resMap) := b.endVector tMaps.length | none
  let some b := b.startObject P.numfields | none
  let some b := addFields (thrMapPayloadFields P resMap (BitVec.ofInt 16 partitionCount)) b | none
  let some (b, payloadPos) := b.endObject | none
  let some b := b.finish payloadPos | none
  b.finishedBytes

/-- A `VbsThreadMap` as the worker reads it. -/
structure VbsThreadMap where
  threadID : BitVec 16
  partitions : List UInt16
  deriving DecidableEq, Repr

/-- `ThreadId()`, `PartitionsLength()` and `Partitions(j)` for each `j` of a `VbsThreadMap`
table. -/
def decodeVbsThreadMap (t : Table) : Option VbsThreadMap := do
  let some threadID := t.scalarField 2 0 0 | none
  let some n := t.vectorFieldLen 1 | none
  let some partitions := (List.range n).mapM (t.scalarVectorAt 2 1) | none
  return ⟨BitVec.ofNat 16 threadID, partitions.map UInt16.ofNat⟩

/-- `ThrMapLength()`, `ThrMap(obj, j)` for each `j`, and `PartitionCount()` of the root `Payload`;
an entry `ThrMap` does not find fails the read. -/
def decodeThrMapPayload (P : PayloadSchema) (buf : List UInt8) : Option (List VbsThreadMap × BitVec 16) := do
  let some t := getRoot buf | none
  let some n := t.vectorFieldLen P.thrMap | none
  let some thrMap := (List.range n).mapM (fun j => do
    let some (some e) := t.tableVectorAt P.thrMap j | none
    decodeVbsThreadMap e) | none
  let some partitionCount := t.scalarField 2 P.partitionCount P.partitionCountDefault | none
  return (thrMap, BitVec.ofNat 16 partitionCount)

end Eventing.Ipc
