import Eventing.Consumer.Frames

/-! # The thread map payload read back

`makeThrMapPayload` tells the worker which vbuckets each of its threads owns:
for each thread, in thread order, a vector of its vbuckets and a `VbsThreadMap`
table, then a vector of those tables and the payload. The vector of tables is
prepended from the last table to the first and reads back in thread order, with
each thread's ID and the partition count as written. Each thread's vector of
vbuckets is prepended from the first vbucket to the last, so the worker reads a
thread's vbuckets in reverse order.

## Implementation notes

`EntryAt` is what one turn of the loop leaves for a reader; the loop lemma keeps
it for every thread written so far, since a builder only writes in front. The
bound of `2 ^ 10` vbuckets per thread keeps every frame far below the two
gigabytes where the builder panics.
-/

namespace Eventing.Ipc

open Flatbuffers Builder

variable {b : Builder} {bs : List UInt8} {u i : Nat} {vbs : List UInt16}

/-- What a reader finds at offset `u`: the `VbsThreadMap` table of thread `i`, whose partitions
vector holds `vbs` from the last vbucket to the first. -/
def EntryAt (bs : List UInt8) (u i : Nat) (vbs : List UInt16) : Prop :=
  ∃ p, TableAt bs u (vbsThreadMapFields p (BitVec.ofNat 16 i)) ∧
    HoldsAt bs p (leBytes 4 vbs.length ++ ((vbs.reverse.map UInt16.toNat).map (leBytes 2)).flatten)

/-- A thread's table stays readable while the builder writes in front of it. -/
theorem EntryAt.mono (h : EntryAt bs u i vbs) {bs' : List UInt8} (hs : bs <:+ bs') : EntryAt bs' u i vbs :=
  let ⟨p, hT, hp⟩ := h
  ⟨p, hT.mono hs, hp.mono hs⟩

/-! ## Writing -/

/-- One turn of the loop: the thread's partitions vector, then its table. -/
theorem makeVbsThreadMap_ready (hR : b.Ready) (vbs : List UInt16) (i : Nat)
    (h : b.bytes.length + 2 * vbs.length + 64 ≤ 2 ^ 30) :
    ∃ b' u, makeVbsThreadMap vbs i b = some (b', u) ∧ b'.Ready ∧ b.bytes <:+ b'.bytes ∧
      b'.bytes.length ≤ b.bytes.length + 2 * vbs.length + 38 ∧ b.bytes.length < u ∧ u ≤ b'.bytes.length ∧
      EntryAt b'.bytes u i vbs := by
  obtain ⟨b₁, b₂, b₃, h₁, h₂, h₃, hR₃, hs₃, hl₃, hat⟩ := uint16Vector_ready hR vbs (by omega)
  have := hs₃.length_le
  set fs := vbsThreadMapFields b₃.bytes.length (BitVec.ofNat 16 i)
  obtain ⟨b₄, b₅, b', u, h₄, h₅, h₆, hR', hs, hu, hl, hT⟩ := buildTable_spec hR₃ 2 fs
    (by simp [fs, vbsThreadMapFields, FieldWrite.slot]) (by simp [fs, vbsThreadMapFields, FieldWrite.slot])
    (by simp [fs, vbsThreadMapFields, FieldWrite.Fits]) (by simp [fs, vbsThreadMapFields, FieldWrite.room])
    (by simp [fs, vbsThreadMapFields, FieldWrite.room]; omega)
  refine ⟨b', u, by simp only [makeVbsThreadMap, h₁, h₂, h₃, h₄, h₅, h₆], hR', hs₃.trans hs,
    by simp [fs, vbsThreadMapFields, FieldWrite.room] at hl; omega, by omega, hT.le_length,
    b₃.bytes.length, hT, hat.mono hs⟩

/-- After `n` turns of the loop the tables of threads `0` to `n - 1` lie at the offsets `tMaps`
holds, in thread order. -/
theorem thrMapTables_ready (thrMap : GoMap Int (List UInt16)) (hR : b.Ready)
    (hvbs : ∀ i : Nat, (thrMap.index i).length ≤ 2 ^ 10) :
    ∀ n, b.bytes.length + n * 2 ^ 12 ≤ 2 ^ 29 →
      ∃ b' ts, thrMapTables thrMap n b = some (b', ts) ∧ b'.Ready ∧ b.bytes <:+ b'.bytes ∧
        b'.bytes.length ≤ b.bytes.length + n * 2 ^ 12 ∧ ts.length = n ∧
        ∀ j (hj : j < ts.length), ts[j] ≤ b'.bytes.length ∧ EntryAt b'.bytes ts[j] j (thrMap.index j)
  | 0, _ => ⟨b, [], rfl, hR, List.suffix_refl _, by omega, rfl, fun _ hj => absurd hj (Nat.not_lt_zero _)⟩
  | n + 1, h => by
    obtain ⟨b₁, ts, h₁, hR₁, hs₁, hl₁, hlen, hts⟩ := thrMapTables_ready thrMap hR hvbs n (by omega)
    have hn := hvbs n
    obtain ⟨b', u, h₂, hR', hs, hl, -, hu, hE⟩ := makeVbsThreadMap_ready hR₁ (thrMap.index n) n (by omega)
    have hle := hs.length_le
    refine ⟨b', ts ++ [u], ?_, hR', hs₁.trans hs, by omega, by simp [hlen], fun j hj => ?_⟩
    · simp only [thrMapTables, List.range_succ, List.foldlM_append, List.foldlM_cons, List.foldlM_nil,
        Option.pure_def, Option.bind_eq_bind] at h₁ ⊢
      simp only [h₁, h₂, Option.some_bind]
    · rw [List.length_append, List.length_singleton] at hj
      rcases Nat.lt_succ_iff_lt_or_eq.mp hj with hj | rfl
      · rw [List.getElem_append_left hj]
        exact ⟨by have := (hts j hj).1; omega, (hts j hj).2.mono hs⟩
      · rw [List.getElem_concat_length ts u _ rfl, hlen]
        exact ⟨hu, hE⟩

/-! ## Reading -/

/-- A thread's table reads back with its ID and its vbuckets in reverse order. -/
theorem EntryAt.decode (h : EntryAt bs u i vbs) (hb : bs.length < 2 ^ 31) :
    decodeVbsThreadMap ⟨bs, bs.length - u⟩ = some ⟨BitVec.ofNat 16 i, vbs.reverse⟩ := by
  obtain ⟨p, hT, hp⟩ := h
  set fs := vbsThreadMapFields p (BitVec.ofNat 16 i)
  have hnd : (fs.map FieldWrite.slot).Nodup := by simp [fs, vbsThreadMapFields, FieldWrite.slot]
  have hf : .offset 1 p ∈ fs := by simp [fs, vbsThreadMapFields]
  have hle := hp.le
  simp only [List.length_append, length_leBytes, length_flatten_leBytes, List.length_map,
    List.length_reverse] at hle
  have r₁ := hT.scalarField hb hnd (show .scalar 0 2 (BitVec.ofNat 16 i).toNat 0 ∈ fs by
    simp [fs, vbsThreadMapFields]) (by have := (BitVec.ofNat 16 i).isLt; omega)
  have r₂ := hT.vectorFieldLen hb hnd hf hp.left (by omega)
  have r₃ : (List.range vbs.length).mapM ((Table.mk bs (bs.length - u)).scalarVectorAt 2 1) =
      some (vbs.reverse.map UInt16.toNat) := by
    rw [← mapM_getElem?_range (vbs.reverse.map UInt16.toNat), List.length_map, List.length_reverse]
    refine mapM_congr_of_mem fun j hj => ?_
    have hj' : j < (vbs.reverse.map UInt16.toNat).length := by simpa using List.mem_range.mp hj
    rw [hT.scalarVectorAt hb hnd hf hp hj' (by simpa using UInt16.toNat_lt_size _), List.getElem?_eq_getElem hj']
  simp only [decodeVbsThreadMap, r₁, r₂, r₃]
  simp [Function.comp_def, ofNat_toNat, -BitVec.toNat_ofNat]

/-! ## The payload -/

/-- For a thread map whose keys are `0` to `k - 1`, the payload reads back as the tables of the
threads in thread order, each with its ID and its vbuckets in reverse order, and the partition
count; the IDs and the count read as `int16` are the numbers written. -/
theorem makeThrMapPayload_decode (P : PayloadSchema) (capacity : Nat) (thrMap : GoMap Int (List UInt16))
    (k : Nat) (hkeys : ∀ i : Int, i ∈ thrMap ↔ 0 ≤ i ∧ i < k) (hk : k < 2 ^ 15)
    (hvbs : ∀ i : Nat, (thrMap.index i).length ≤ 2 ^ 10) (partitionCount : Int)
    (hpc : 0 ≤ partitionCount ∧ partitionCount < 2 ^ 15) :
    ∃ bs, makeThrMapPayload P thrMap partitionCount (reset capacity) = some bs ∧
      decodeThrMapPayload P bs = some ((List.range k).map fun i => ⟨BitVec.ofNat 16 i, (thrMap.index i).reverse⟩,
        BitVec.ofInt 16 partitionCount) ∧
      (∀ i < k, (BitVec.ofNat 16 i).toInt = i) ∧ (BitVec.ofInt 16 partitionCount).toInt = partitionCount := by
  have h0 : (reset capacity).bytes.length = 0 := rfl
  obtain ⟨b₁, ts, h₁, hR₁, -, hl₁, hlen, hts⟩ :=
    thrMapTables_ready thrMap (ready_reset capacity) hvbs k (by omega)
  obtain ⟨b₂, b₃, b₄, h₂, h₃, h₄, hR₄, hs₄, hlo₄, hl₄, hat₄, hent⟩ := offsetVector_ready hR₁ ts
    (fun t ht => by obtain ⟨j, hj, rfl⟩ := List.getElem_of_mem ht; exact (hts j hj).1) (by omega)
  have hn := P.numfields_lt
  set fs := thrMapPayloadFields P b₄.bytes.length (BitVec.ofInt 16 partitionCount)
  obtain ⟨hslot, hnd⟩ := P.slots_run (show fs.map FieldWrite.slot = (P.slots.take 22).drop 20 from rfl)
  obtain ⟨_, _, _, oo, b', h₅, h₆, h₇, h₈, h₉, hs, hl, hroot, hT⟩ := tableFrame_ready hR₄ P.numfields fs
    hslot hnd (by simp [fs, thrMapPayloadFields, FieldWrite.Fits])
    (by simp [fs, thrMapPayloadFields, FieldWrite.room]; omega)
    (by simp [fs, thrMapPayloadFields, FieldWrite.room]; omega)
  have hb : b'.bytes.length < 2 ^ 31 := by simp [fs, thrMapPayloadFields, FieldWrite.room] at hl; omega
  have hf : .offset P.thrMap b₄.bytes.length ∈ fs := by simp [fs, thrMapPayloadFields]
  have r₁ := hT.vectorFieldLen hb hnd hf (hat₄.mono hs) (by omega)
  have r₂ := hT.scalarField hb hnd (show .scalar P.partitionCount 2 (BitVec.ofInt 16 partitionCount).toNat
    P.partitionCountDefault ∈ fs by simp [fs, thrMapPayloadFields])
    (by have := (BitVec.ofInt 16 partitionCount).isLt; omega)
  refine ⟨b'.bytes, ?_, ?_, fun i hi => ?_, ?_⟩
  · simp only [makeThrMapPayload, GoMap.keys_length_of_range hkeys, h₁, h₂, h₃, h₄, h₅, h₆, h₇, h₈, h₉]
  · simp only [decodeThrMapPayload, hroot, r₁, r₂]
    rw [@mapM_some_map _ _ _ (fun j : Nat => (⟨BitVec.ofNat 16 j, (thrMap.index j).reverse⟩ : VbsThreadMap)) _
      fun j hj => ?_, hlen]
    · simp [-BitVec.toNat_ofInt]
    · have hj := List.mem_range.mp hj
      rw [hT.tableVectorAt hb hnd hf ((hent j hj).mono hs) (by have := (hts j hj).1; omega)]
      exact ((hts j hj).2.mono (hs₄.trans hs)).decode hb
  · rw [BitVec.toInt_eq_toNat_cond, BitVec.toNat_ofNat, if_pos (by omega)]
    omega
  · rw [BitVec.toInt_eq_toNat_cond, BitVec.toNat_ofInt]
    split <;> omega

/-- One thread owning the vbuckets `1` and `2`: the worker reads them as `2, 1`. -/
theorem makeThrMapPayload_decode_one_thread :
    let thrMap : GoMap Int (List UInt16) := (∅ : GoMap Int (List UInt16)).insert 0 [1, 2]
    (∀ i : Int, i ∈ thrMap ↔ 0 ≤ i ∧ i < (1 : Nat)) ∧ 1 < 2 ^ 15 ∧
      (∀ i : Nat, (thrMap.index i).length ≤ 2 ^ 10) ∧ (0 ≤ (0 : Int) ∧ (0 : Int) < 2 ^ 15) ∧
      ∃ bs, makeThrMapPayload PayloadSchema.inOrder thrMap 0 (reset 0) = some bs ∧
        decodeThrMapPayload PayloadSchema.inOrder bs = some ([⟨0, [2, 1]⟩], 0) := by
  intro thrMap
  have hkeys : ∀ i : Int, i ∈ thrMap ↔ 0 ≤ i ∧ i < (1 : Nat) := fun i => by
    simp only [thrMap, AList.mem_insert, AList.not_mem_empty, or_false]
    exact ⟨by omega, by omega⟩
  have hvbs : ∀ i : Nat, (thrMap.index i).length ≤ 2 ^ 10 := fun i => by
    simp only [thrMap, GoMap.index, GoMap.lookup_insert_eq, AList.lookup_empty]
    split <;> decide
  obtain ⟨bs, h₁, h₂, -, -⟩ :=
    makeThrMapPayload_decode PayloadSchema.inOrder 0 thrMap 1 hkeys (by decide) hvbs 0 (by decide)
  exact ⟨hkeys, by decide, hvbs, by decide, bs, h₁, by simpa [thrMap, GoMap.index] using h₂⟩

end Eventing.Ipc
