import Eventing.Consumer.Ipc

/-! # Header and payload frames read back

Every `make…` function writes its strings first, then one table of fields, and
finishes the frame with that table as its root. A frame reads back through the
generated accessors as it was made: the header gives its event, opcode,
partition and metadata, and each payload the fields its maker wrote, the `int`
settings as their low 32 bits. This holds for every frame that fits in 2^30
bytes, the size to which `growByteBuffer` grows the buffer from any capacity
before it panics; a string of two gigabytes makes the builder panic, and no
frame is made.

## Implementation notes

`tableFrame_ready` is the part the makers share, from `StartObject` to
`FinishedBytes`; each maker's lemma adds its `CreateString` calls in front and
reads its fields back. The builder is the one `getBuilder` hands out, after
`Reset`, of any capacity.
-/

namespace Eventing.Ipc

open Flatbuffers Builder

variable {b : Builder}

/-- `StartObject(n)`, the field adds, `EndObject()`, `Finish(pos)` and `FinishedBytes()` on a
ready builder: the root of the frame is the table of the fields. -/
theorem tableFrame_ready (hR : b.Ready) (n : Nat) (fs : List FieldWrite)
    (hslot : ∀ f ∈ fs, f.slot < n) (hnd : (fs.map FieldWrite.slot).Nodup)
    (hfit : ∀ f ∈ fs, f.Fits b.bytes.length) (hsize : 2 * n + (fs.map FieldWrite.room).sum + 8 < 2 ^ 16)
    (h : b.bytes.length + (fs.map FieldWrite.room).sum + 2 * n + 56 ≤ 2 ^ 30) :
    ∃ b₁ b₂ b₃ oo b', b.startObject n = some b₁ ∧ addFields fs b₁ = some b₂ ∧
      b₂.endObject = some (b₃, oo) ∧ b₃.finish oo = some b' ∧ b'.finishedBytes = some b'.bytes ∧
      b.bytes <:+ b'.bytes ∧ b'.bytes.length ≤ b.bytes.length + (fs.map FieldWrite.room).sum + 2 * n + 28 ∧
      getRoot b'.bytes = some ⟨b'.bytes, b'.bytes.length - oo⟩ ∧ TableAt b'.bytes oo fs := by
  obtain ⟨b₁, b₂, b₃, oo, h₁, h₂, h₃, hR₃, hs₃, -, hl₃, hT⟩ :=
    buildTable_spec hR n fs hslot hnd hfit hsize (by omega)
  obtain ⟨b', h₄, h₅, hs, hl, hroot⟩ := finish_ready hR₃ hT.le_length (by omega)
  exact ⟨b₁, b₂, b₃, oo, b', h₁, h₂, h₃, h₄, h₅, hs₃.trans hs, by omega, hroot, hT.mono hs⟩

/-! ## The header -/

/-- A header frame reads back as it was made. -/
theorem makeHeader_decode (capacity : Nat) (event opcode : BitVec 8) (partition : BitVec 16)
    (meta : List UInt8) (h : meta.length ≤ 2 ^ 30 - 128) :
    ∃ bs, makeHeader event opcode partition meta (reset capacity) = some bs ∧
      decodeHeader bs = some ⟨event, opcode, partition, meta⟩ := by
  have h0 : (reset capacity).bytes.length = 0 := rfl
  obtain ⟨b₁, h₁, hR₁, -, hl₁, hat⟩ := createString_ready (ready_reset capacity) meta (by omega)
  set fs := headerFields event opcode partition b₁.bytes.length
  have hnd : (fs.map FieldWrite.slot).Nodup := by simp [fs, headerFields, FieldWrite.slot]
  obtain ⟨_, _, _, oo, b', h₂, h₃, h₄, h₅, h₆, hs, hl, hroot, hT⟩ := tableFrame_ready hR₁ 4 fs
    (by simp [fs, headerFields, FieldWrite.slot]) hnd (by simp [fs, headerFields, FieldWrite.Fits])
    (by simp [fs, headerFields, FieldWrite.room]) (by simp [fs, headerFields, FieldWrite.room]; omega)
  refine ⟨b'.bytes, by simp only [makeHeader, h₁, h₂, h₃, h₄, h₅, h₆, Option.bind_eq_bind, Option.some_bind], ?_⟩
  have hb : b'.bytes.length < 2 ^ 31 := by simp [fs, headerFields, FieldWrite.room] at hl; omega
  have r₁ := hT.scalarField hb hnd (show .scalar 0 1 event.toNat 0 ∈ fs by simp [fs, headerFields])
    (by have := event.isLt; omega)
  have r₂ := hT.scalarField hb hnd (show .scalar 1 1 opcode.toNat 0 ∈ fs by simp [fs, headerFields])
    (by have := opcode.isLt; omega)
  have r₃ := hT.scalarField hb hnd (show .scalar 2 2 partition.toNat 0 ∈ fs by simp [fs, headerFields])
    (by have := partition.isLt; omega)
  have r₄ := hT.bytesField hb hnd (show .offset 3 b₁.bytes.length ∈ fs by simp [fs, headerFields])
    (hat.mono hs)
  simp [decodeHeader, hroot, r₁, r₂, r₃, r₄]

/-! ## The payloads -/

variable (P : PayloadSchema) (capacity : Nat)

/-- A DCP payload reads back with its key and value. -/
theorem makeDcpPayload_decode (key value : List UInt8) (h : key.length + value.length ≤ 2 ^ 30 - 2 ^ 16) :
    ∃ bs, makeDcpPayload P key value (reset capacity) = some bs ∧
      decodeDcpPayload P bs = some (key, value) := by
  have h0 : (reset capacity).bytes.length = 0 := rfl
  obtain ⟨b₁, h₁, hR₁, -, hl₁, hat₁⟩ := createString_ready (ready_reset capacity) key (by omega)
  obtain ⟨b₂, h₂, hR₂, hs₂, hl₂, hat₂⟩ := createString_ready hR₁ value (by omega)
  have := hs₂.length_le
  have hn := P.numfields_lt
  set fs := dcpPayloadFields P b₁.bytes.length b₂.bytes.length
  obtain ⟨hslot, hnd⟩ := P.slots_run (show fs.map FieldWrite.slot = (P.slots.take 2).drop 0 from rfl)
  obtain ⟨_, _, _, oo, b', h₃, h₄, h₅, h₆, h₇, hs, hl, hroot, hT⟩ := tableFrame_ready hR₂ P.numfields fs
    hslot hnd (by simp [fs, dcpPayloadFields, FieldWrite.Fits]; omega)
    (by simp [fs, dcpPayloadFields, FieldWrite.room]; omega) (by simp [fs, dcpPayloadFields, FieldWrite.room]; omega)
  refine ⟨b'.bytes, by simp only [makeDcpPayload, createByteString, h₁, h₂, h₃, h₄, h₅, h₆, h₇,
    Option.bind_eq_bind, Option.some_bind], ?_⟩
  have hb : b'.bytes.length < 2 ^ 31 := by simp [fs, dcpPayloadFields, FieldWrite.room] at hl; omega
  have r₁ := hT.bytesField hb hnd (show .offset P.key b₁.bytes.length ∈ fs by simp [fs, dcpPayloadFields])
    (hat₁.mono (hs₂.trans hs))
  have r₂ := hT.bytesField hb hnd (show .offset P.value b₂.bytes.length ∈ fs by simp [fs, dcpPayloadFields])
    (hat₂.mono hs)
  simp [decodeDcpPayload, hroot, r₁, r₂]

/-- A doc timer payload reads back with its document ID and callback. -/
theorem makeDocTimerPayload_decode (docID callbackFn : List UInt8)
    (h : docID.length + callbackFn.length ≤ 2 ^ 30 - 2 ^ 16) :
    ∃ bs, makeDocTimerPayload P docID callbackFn (reset capacity) = some bs ∧
      decodeDocTimerPayload P bs = some (docID, callbackFn) := by
  have h0 : (reset capacity).bytes.length = 0 := rfl
  obtain ⟨b₁, h₁, hR₁, -, hl₁, hat₁⟩ := createString_ready (ready_reset capacity) docID (by omega)
  obtain ⟨b₂, h₂, hR₂, hs₂, hl₂, hat₂⟩ := createString_ready hR₁ callbackFn (by omega)
  have := hs₂.length_le
  have hn := P.numfields_lt
  set fs := docTimerPayloadFields P b₁.bytes.length b₂.bytes.length
  obtain ⟨hslot, hnd⟩ := P.slots_run (show fs.map FieldWrite.slot = (P.slots.take 4).drop 2 from rfl)
  obtain ⟨_, _, _, oo, b', h₃, h₄, h₅, h₆, h₇, hs, hl, hroot, hT⟩ := tableFrame_ready hR₂ P.numfields fs
    hslot hnd (by simp [fs, docTimerPayloadFields, FieldWrite.Fits]; omega)
    (by simp [fs, docTimerPayloadFields, FieldWrite.room]; omega)
    (by simp [fs, docTimerPayloadFields, FieldWrite.room]; omega)
  refine ⟨b'.bytes, by simp only [makeDocTimerPayload, h₁, h₂, h₃, h₄, h₅, h₆, h₇, Option.bind_eq_bind,
    Option.some_bind], ?_⟩
  have hb : b'.bytes.length < 2 ^ 31 := by simp [fs, docTimerPayloadFields, FieldWrite.room] at hl; omega
  have r₁ := hT.bytesField hb hnd (show .offset P.docId b₁.bytes.length ∈ fs by simp [fs, docTimerPayloadFields])
    (hat₁.mono (hs₂.trans hs))
  have r₂ := hT.bytesField hb hnd
    (show .offset P.callbackFn b₂.bytes.length ∈ fs by simp [fs, docTimerPayloadFields]) (hat₂.mono hs)
  simp [decodeDocTimerPayload, hroot, r₁, r₂]

/-- A non-doc timer payload reads back with its data. -/
theorem makeNonDocTimerPayload_decode (data : List UInt8) (h : data.length ≤ 2 ^ 30 - 2 ^ 16) :
    ∃ bs, makeNonDocTimerPayload P data (reset capacity) = some bs ∧
      decodeNonDocTimerPayload P bs = some data := by
  have h0 : (reset capacity).bytes.length = 0 := rfl
  obtain ⟨b₁, h₁, hR₁, -, hl₁, hat₁⟩ := createString_ready (ready_reset capacity) data (by omega)
  have hn := P.numfields_lt
  set fs := nonDocTimerPayloadFields P b₁.bytes.length
  obtain ⟨hslot, hnd⟩ := P.slots_run (show fs.map FieldWrite.slot = (P.slots.take 5).drop 4 from rfl)
  obtain ⟨_, _, _, oo, b', h₂, h₃, h₄, h₅, h₆, hs, hl, hroot, hT⟩ := tableFrame_ready hR₁ P.numfields fs
    hslot hnd (by simp [fs, nonDocTimerPayloadFields, FieldWrite.Fits])
    (by simp [fs, nonDocTimerPayloadFields, FieldWrite.room]; omega)
    (by simp [fs, nonDocTimerPayloadFields, FieldWrite.room]; omega)
  refine ⟨b'.bytes, by simp only [makeNonDocTimerPayload, h₁, h₂, h₃, h₄, h₅, h₆, Option.bind_eq_bind,
    Option.some_bind], ?_⟩
  have hb : b'.bytes.length < 2 ^ 31 := by simp [fs, nonDocTimerPayloadFields, FieldWrite.room] at hl; omega
  have r := hT.bytesField hb hnd
    (show .offset P.docIdsCallbackFns b₁.bytes.length ∈ fs by simp [fs, nonDocTimerPayloadFields]) (hat₁.mono hs)
  simp [decodeNonDocTimerPayload, hroot, r]

/-- The init payload reads back with its eight strings, each in its own field, the four `int`
settings as their low 32 bits, the curl timeout and both flags. -/
theorem makeV8InitPayload_decode
    (appName currHost eventingDir eventingPort kvHostPort depCfg rbacUser rbacPass : List UInt8)
    (lcbInstCapacity executionTimeout fuzzOffset checkpointInterval : Int)
    (enableRecursiveMutation skipLcbBootstrap : Bool) (curlTimeout : BitVec 64)
    (h : appName.length + currHost.length + eventingDir.length + eventingPort.length + kvHostPort.length +
      depCfg.length + rbacUser.length + rbacPass.length ≤ 2 ^ 30 - 2 ^ 16) :
    ∃ bs, makeV8InitPayload P appName currHost eventingDir eventingPort kvHostPort depCfg rbacUser rbacPass
        lcbInstCapacity executionTimeout fuzzOffset checkpointInterval enableRecursiveMutation skipLcbBootstrap
        curlTimeout (reset capacity) = some bs ∧
      decodeV8InitPayload P bs = some ⟨appName, currHost, eventingDir, eventingPort, depCfg, kvHostPort,
        rbacUser, rbacPass, BitVec.ofInt 32 lcbInstCapacity, BitVec.ofInt 32 executionTimeout,
        BitVec.ofInt 32 fuzzOffset, BitVec.ofInt 32 checkpointInterval, curlTimeout, enableRecursiveMutation,
        skipLcbBootstrap⟩ := by
  have h0 : (reset capacity).bytes.length = 0 := rfl
  obtain ⟨b₁, h₁, hR₁, -, hl₁, hat₁⟩ := createString_ready (ready_reset capacity) appName (by omega)
  obtain ⟨b₂, h₂, hR₂, hs₂, hl₂, hat₂⟩ := createString_ready hR₁ currHost (by omega)
  obtain ⟨b₃, h₃, hR₃, hs₃, hl₃, hat₃⟩ := createString_ready hR₂ eventingDir (by omega)
  obtain ⟨b₄, h₄, hR₄, hs₄, hl₄, hat₄⟩ := createString_ready hR₃ eventingPort (by omega)
  obtain ⟨b₅, h₅, hR₅, hs₅, hl₅, hat₅⟩ := createString_ready hR₄ depCfg (by omega)
  obtain ⟨b₆, h₆, hR₆, hs₆, hl₆, hat₆⟩ := createString_ready hR₅ kvHostPort (by omega)
  obtain ⟨b₇, h₇, hR₇, hs₇, hl₇, hat₇⟩ := createString_ready hR₆ rbacUser (by omega)
  obtain ⟨b₈, h₈, hR₈, hs₈, hl₈, hat₈⟩ := createString_ready hR₇ rbacPass (by omega)
  have := hs₂.length_le; have := hs₃.length_le; have := hs₄.length_le; have := hs₅.length_le
  have := hs₆.length_le; have := hs₇.length_le; have := hs₈.length_le
  have hn := P.numfields_lt
  set fs := v8InitPayloadFields P b₁.bytes.length b₂.bytes.length b₃.bytes.length b₄.bytes.length
    b₅.bytes.length b₆.bytes.length b₇.bytes.length b₈.bytes.length lcbInstCapacity executionTimeout fuzzOffset
    checkpointInterval curlTimeout enableRecursiveMutation skipLcbBootstrap
  obtain ⟨hslot, hnd⟩ := P.slots_run (show fs.map FieldWrite.slot = (P.slots.take 20).drop 5 from rfl)
  obtain ⟨_, _, _, oo, b', h₉, h₁₀, h₁₁, h₁₂, h₁₃, hs, hl, hroot, hT⟩ := tableFrame_ready hR₈ P.numfields fs
    hslot hnd (by simp only [fs, v8InitPayloadFields, List.forall_mem_cons, FieldWrite.Fits, List.not_mem_nil,
      IsEmpty.forall_iff, implies_true, and_true, Nat.reduceLT, Nat.reduceLeDiff, Nat.ofNat_pos, le_refl]; omega)
    (by simp [fs, v8InitPayloadFields, FieldWrite.room]; omega)
    (by simp [fs, v8InitPayloadFields, FieldWrite.room]; omega)
  refine ⟨b'.bytes, by simp only [makeV8InitPayload, h₁, h₂, h₃, h₄, h₅, h₆, h₇, h₈, h₉, h₁₀, h₁₁, h₁₂, h₁₃], ?_⟩
  have hb : b'.bytes.length < 2 ^ 31 := by simp [fs, v8InitPayloadFields, FieldWrite.room] at hl; omega
  have f₇ := hs₈.trans hs
  have f₆ := hs₇.trans f₇
  have f₅ := hs₆.trans f₆
  have f₄ := hs₅.trans f₅
  have f₃ := hs₄.trans f₄
  have f₂ := hs₃.trans f₃
  have f₁ := hs₂.trans f₂
  have r₁ := hT.bytesField hb hnd (show .offset P.appName b₁.bytes.length ∈ fs by simp only [fs, v8InitPayloadFields, List.mem_cons, true_or, or_true])
    (hat₁.mono f₁)
  have r₂ := hT.bytesField hb hnd (show .offset P.currHost b₂.bytes.length ∈ fs by simp only [fs, v8InitPayloadFields, List.mem_cons, true_or, or_true])
    (hat₂.mono f₂)
  have r₃ := hT.bytesField hb hnd
    (show .offset P.eventingDir b₃.bytes.length ∈ fs by simp only [fs, v8InitPayloadFields, List.mem_cons, true_or, or_true]) (hat₃.mono f₃)
  have r₄ := hT.bytesField hb hnd
    (show .offset P.currEventingPort b₄.bytes.length ∈ fs by simp only [fs, v8InitPayloadFields, List.mem_cons, true_or, or_true]) (hat₄.mono f₄)
  have r₅ := hT.bytesField hb hnd (show .offset P.depcfg b₅.bytes.length ∈ fs by simp only [fs, v8InitPayloadFields, List.mem_cons, true_or, or_true])
    (hat₅.mono f₅)
  have r₆ := hT.bytesField hb hnd
    (show .offset P.kvHostPort b₆.bytes.length ∈ fs by simp only [fs, v8InitPayloadFields, List.mem_cons, true_or, or_true]) (hat₆.mono f₆)
  have r₇ := hT.bytesField hb hnd (show .offset P.rbacUser b₇.bytes.length ∈ fs by simp only [fs, v8InitPayloadFields, List.mem_cons, true_or, or_true])
    (hat₇.mono f₇)
  have r₈ := hT.bytesField hb hnd (show .offset P.rbacPass b₈.bytes.length ∈ fs by simp only [fs, v8InitPayloadFields, List.mem_cons, true_or, or_true])
    (hat₈.mono hs)
  have r₉ := hT.scalarField hb hnd (show .scalar P.lcbInstCapacity 4 (BitVec.ofInt 32 lcbInstCapacity).toNat
    P.lcbInstCapacityDefault ∈ fs by simp only [fs, v8InitPayloadFields, List.mem_cons, true_or, or_true]) (by have := (BitVec.ofInt 32 lcbInstCapacity).isLt; omega)
  have r₁₀ := hT.scalarField hb hnd (show .scalar P.executionTimeout 4 (BitVec.ofInt 32 executionTimeout).toNat
    P.executionTimeoutDefault ∈ fs by simp only [fs, v8InitPayloadFields, List.mem_cons, true_or, or_true])
    (by have := (BitVec.ofInt 32 executionTimeout).isLt; omega)
  have r₁₁ := hT.scalarField hb hnd (show .scalar P.fuzzOffset 4 (BitVec.ofInt 32 fuzzOffset).toNat
    P.fuzzOffsetDefault ∈ fs by simp only [fs, v8InitPayloadFields, List.mem_cons, true_or, or_true]) (by have := (BitVec.ofInt 32 fuzzOffset).isLt; omega)
  have r₁₂ := hT.scalarField hb hnd (show .scalar P.checkpointInterval 4 (BitVec.ofInt 32 checkpointInterval).toNat
    P.checkpointIntervalDefault ∈ fs by simp only [fs, v8InitPayloadFields, List.mem_cons, true_or, or_true])
    (by have := (BitVec.ofInt 32 checkpointInterval).isLt; omega)
  have r₁₃ := hT.scalarField hb hnd (show .scalar P.curlTimeout 8 curlTimeout.toNat P.curlTimeoutDefault ∈ fs by
    simp only [fs, v8InitPayloadFields, List.mem_cons, true_or, or_true]) (by have := curlTimeout.isLt; omega)
  have r₁₄ := hT.scalarField hb hnd (show .scalar P.enableRecursiveMutation 1 (writeBool enableRecursiveMutation)
    P.enableRecursiveMutationDefault ∈ fs by simp only [fs, v8InitPayloadFields, List.mem_cons, true_or, or_true]) (writeBool_lt _)
  have r₁₅ := hT.scalarField hb hnd (show .scalar P.skipLcbBootstrap 1 (writeBool skipLcbBootstrap)
    P.skipLcbBootstrapDefault ∈ fs by simp only [fs, v8InitPayloadFields, List.mem_cons, true_or, or_true]) (writeBool_lt _)
  simp [decodeV8InitPayload, hroot, r₁, r₂, r₃, r₄, r₅, r₆, r₇, r₈, r₉, r₁₀, r₁₁, r₁₂, r₁₃, r₁₄, r₁₅,
    -BitVec.toNat_ofInt]

/-! ## Every frame with strings and scalars -/

/-- The header and the payloads of strings and scalars read back as they were made, for a
header whose metadata has at most `2 ^ 30 - 128` bytes and payloads whose strings total at most
`2 ^ 30 - 2 ^ 16` bytes: the builder grows to `2 ^ 30` bytes, and a payload's table and vtable,
with up to `2 ^ 14` slots, take the rest. -/
theorem frames_read_back (event opcode : BitVec 8) (partition : BitVec 16)
    (meta key value docID callbackFn data : List UInt8)
    (appName currHost eventingDir eventingPort kvHostPort depCfg rbacUser rbacPass : List UInt8)
    (lcbInstCapacity executionTimeout fuzzOffset checkpointInterval : Int)
    (enableRecursiveMutation skipLcbBootstrap : Bool) (curlTimeout : BitVec 64)
    (hmeta : meta.length ≤ 2 ^ 30 - 128) (hdcp : key.length + value.length ≤ 2 ^ 30 - 2 ^ 16)
    (hdoc : docID.length + callbackFn.length ≤ 2 ^ 30 - 2 ^ 16) (hdata : data.length ≤ 2 ^ 30 - 2 ^ 16)
    (hinit : appName.length + currHost.length + eventingDir.length + eventingPort.length + kvHostPort.length +
      depCfg.length + rbacUser.length + rbacPass.length ≤ 2 ^ 30 - 2 ^ 16) :
    (∃ bs, makeHeader event opcode partition meta (reset capacity) = some bs ∧
      decodeHeader bs = some ⟨event, opcode, partition, meta⟩) ∧
    (∃ bs, makeDcpPayload P key value (reset capacity) = some bs ∧
      decodeDcpPayload P bs = some (key, value)) ∧
    (∃ bs, makeDocTimerPayload P docID callbackFn (reset capacity) = some bs ∧
      decodeDocTimerPayload P bs = some (docID, callbackFn)) ∧
    (∃ bs, makeNonDocTimerPayload P data (reset capacity) = some bs ∧
      decodeNonDocTimerPayload P bs = some data) ∧
    ∃ bs, makeV8InitPayload P appName currHost eventingDir eventingPort kvHostPort depCfg rbacUser rbacPass
        lcbInstCapacity executionTimeout fuzzOffset checkpointInterval enableRecursiveMutation skipLcbBootstrap
        curlTimeout (reset capacity) = some bs ∧
      decodeV8InitPayload P bs = some ⟨appName, currHost, eventingDir, eventingPort, depCfg, kvHostPort,
        rbacUser, rbacPass, BitVec.ofInt 32 lcbInstCapacity, BitVec.ofInt 32 executionTimeout,
        BitVec.ofInt 32 fuzzOffset, BitVec.ofInt 32 checkpointInterval, curlTimeout, enableRecursiveMutation,
        skipLcbBootstrap⟩ :=
  ⟨makeHeader_decode capacity event opcode partition meta hmeta, makeDcpPayload_decode P capacity key value hdcp,
    makeDocTimerPayload_decode P capacity docID callbackFn hdoc, makeNonDocTimerPayload_decode P capacity data hdata,
    makeV8InitPayload_decode P capacity appName currHost eventingDir eventingPort kvHostPort depCfg rbacUser rbacPass
      lcbInstCapacity executionTimeout fuzzOffset checkpointInterval enableRecursiveMutation skipLcbBootstrap
      curlTimeout hinit⟩

/-- The five frames on short strings. -/
theorem frames_read_back_small :
    let e : List UInt8 := []
    [104, 105].length ≤ 2 ^ 30 - 128 ∧ [1].length + [2].length ≤ 2 ^ 30 - 2 ^ 16 ∧ [3].length + [4].length ≤ 2 ^ 30 - 2 ^ 16 ∧
      [5].length ≤ 2 ^ 30 - 2 ^ 16 ∧ [97].length + e.length + e.length + e.length + e.length + e.length + e.length +
        e.length ≤ 2 ^ 30 - 2 ^ 16 ∧
    (∃ bs, makeHeader 4 3 0 [104, 105] (reset 0) = some bs ∧ decodeHeader bs = some ⟨4, 3, 0, [104, 105]⟩) ∧
    (∃ bs, makeDcpPayload PayloadSchema.inOrder [1] [2] (reset 0) = some bs ∧
      decodeDcpPayload PayloadSchema.inOrder bs = some ([1], [2])) ∧
    (∃ bs, makeDocTimerPayload PayloadSchema.inOrder [3] [4] (reset 0) = some bs ∧
      decodeDocTimerPayload PayloadSchema.inOrder bs = some ([3], [4])) ∧
    (∃ bs, makeNonDocTimerPayload PayloadSchema.inOrder [5] (reset 0) = some bs ∧
      decodeNonDocTimerPayload PayloadSchema.inOrder bs = some [5]) ∧
    ∃ bs, makeV8InitPayload PayloadSchema.inOrder [97] [] [] [] [] [] [] [] (-1) 0 0 0 true false 0 (reset 0) =
        some bs ∧
      decodeV8InitPayload PayloadSchema.inOrder bs =
        some ⟨[97], [], [], [], [], [], [], [], BitVec.ofInt 32 (-1), 0, 0, 0, 0, true, false⟩ :=
  ⟨by decide, by decide, by decide, by decide, by decide,
    frames_read_back PayloadSchema.inOrder 0 4 3 0 [104, 105] [1] [2] [3] [4] [5] [97] [] [] [] [] [] [] []
      (-1) 0 0 0 true false 0 (by decide) (by decide) (by decide) (by decide) (by decide)⟩

/-- A metadata string of two gigabytes makes `CreateString` panic: no header is made. -/
theorem makeHeader_two_gigabyte_meta : makeHeader 0 0 0 (List.replicate (2 ^ 31) 0) (reset 0) = none := by
  have h := createString_eq_none (show (reset 0).nested = false from rfl)
    (show (reset 0).capacity < 2 ^ 31 by decide)
    (show 2 ^ 31 ≤ (reset 0).bytes.length + (List.replicate (2 ^ 31) (0 : UInt8)).length + 5 by
      rw [List.length_replicate]; omega)
  simp only [makeHeader, h, Option.bind_eq_bind, Option.none_bind]

end Eventing.Ipc
