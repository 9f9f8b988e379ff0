import Eventing.Flatbuffers.Fields

/-! # Strings and vectors

Before a table the consumer writes the strings, byte strings and vectors its
offset fields point to: `CreateString` and `CreateByteString` for the texts and
keys, and the vectors of a thread map, one `Prepend…` per element between
`StartVector` and `EndVector`. This module says where each lands and that the
generated accessors of an offset field read it back.

## Implementation notes

A builder prepends, so the element prepended last comes first in the vector: a
loop that prepends from the first element to the last stores the elements in
reverse order. The lemmas state the stored order and leave the loop to the
caller.
-/

namespace Eventing.Flatbuffers

open Builder

variable {b : Builder}

/-! ## Writing -/

/-- The bookkeeping of a builder that only wrote bytes in front and raised its alignment to at
most `8`. -/
theorem grows_of_bytes {b' : Builder} (hs : b.bytes <:+ b'.bytes) (he : b'.objectEnd = b.objectEnd)
    (hv : b'.vtables = b.vtables) (hn : b'.nested = b.nested) (hf : b'.finished = b.finished)
    (hl : b'.vtable = b.vtable) {a : Nat} (ha : b'.minalign = max b.minalign a) (ha8 : a ≤ 8) :
    Grows b b' :=
  ⟨hs, he, hv, hn, hf, hl ▸ rfl, fun h₁ h₂ => by
    rw [ha]; exact ⟨Nat.lt_of_lt_of_le h₁ (Nat.le_max_left _ _), Nat.max_le.mpr ⟨h₂, ha8⟩⟩⟩

/-- `CreateString(s)` on a ready builder: the bytes of `s` lie behind their length at the offset
it returns. -/
theorem createString_ready (hR : b.Ready) (s : List UInt8) (h : b.bytes.length + s.length + 16 ≤ 2 ^ 30) :
    ∃ b', b.createString s = some (b', b'.bytes.length) ∧ b'.Ready ∧ b.bytes <:+ b'.bytes ∧
      b'.bytes.length ≤ b.bytes.length + s.length + 8 ∧
      HoldsAt b'.bytes b'.bytes.length (leBytes 4 s.length ++ s) := by
  obtain ⟨c, -, he⟩ := b.createString_spec s hR.nested h
  have hk := alignSize_lt 4 (s.length + 1) b.bytes.length (by decide)
  set b' : Builder := { b with
    minalign := max b.minalign 4, capacity := c,
    bytes := leBytes 4 s.length ++ s ++ 0 :: List.replicate (alignSize 4 (s.length + 1) b.bytes.length) 0 ++
      b.bytes }
  have hl : b'.bytes.length = b.bytes.length + alignSize 4 (s.length + 1) b.bytes.length + s.length + 5 := by
    simp only [b', List.length_append, length_leBytes, List.length_cons, List.length_replicate]; omega
  have hs : b.bytes <:+ b'.bytes := List.suffix_append _ _
  refine ⟨b', by rw [he, hl], hR.of_grows (grows_of_bytes hs rfl rfl rfl rfl rfl rfl (by decide)),
    hs, by omega, ?_⟩
  exact (holdsAt_front _ _).left

/-- A string that does not fit below two gigabytes makes `CreateString` panic: the slice cannot
grow to hold it. -/
theorem createString_eq_none (hn : b.nested = false) (hc : b.capacity < 2 ^ 31) {s : List UInt8}
    (h : 2 ^ 31 ≤ b.bytes.length + s.length + 5) : b.createString s = none := by
  have := growLoop_eq_none (alignSize 4 (s.length + 1) b.bytes.length + 4 + (s.length + 1))
    { b with nested := true, minalign := max b.minalign 4 } hc (by simp only; omega)
  simp only [createString, hn, prep, offset_eq, Option.bind_eq_bind, this, Option.none_bind]
  rfl

/-- `StartVector(2, n, 2)`, `PrependUint16` of the elements from the first to the last, and
`EndVector(n)`: the elements lie behind the length in reverse order. -/
theorem uint16Vector_ready (hR : b.Ready) (xs : List UInt16)
    (h : b.bytes.length + 2 * xs.length + 24 ≤ 2 ^ 30) :
    ∃ b₁ b₂ b', b.startVector 2 xs.length 2 = some b₁ ∧
      xs.foldlM (fun b x => b.prependUint16 x) b₁ = some b₂ ∧
      b₂.endVector xs.length = some (b', b'.bytes.length) ∧ b'.Ready ∧ b.bytes <:+ b'.bytes ∧
      b'.bytes.length ≤ b.bytes.length + 2 * xs.length + 8 ∧
      HoldsAt b'.bytes b'.bytes.length
        (leBytes 4 xs.length ++ ((xs.reverse.map UInt16.toNat).map (leBytes 2)).flatten) := by
  obtain ⟨c, hc, h₁⟩ := b.startVector_spec hR.nested (Or.inl rfl)
    (show b.bytes.length + 2 * xs.length + 16 ≤ 2 ^ 30 by omega)
  have hk := alignSize_lt 4 (2 * xs.length) b.bytes.length (by decide)
  have hk4 : (alignSize 4 (2 * xs.length) b.bytes.length + b.bytes.length + 2 * xs.length) % 4 = 0 := by
    simp only [alignSize]; omega
  generalize alignSize 4 (2 * xs.length) b.bytes.length = k at hk hk4 h₁ hc
  set b₁ : Builder := { b with
    nested := true, minalign := max (max b.minalign 4) 2, capacity := c, bytes := List.replicate k 0 ++ b.bytes }
  have hl₁ : b₁.bytes.length = k + b.bytes.length := by simp only [b₁, List.length_append, List.length_replicate]
  have h₂ := foldlM_prependUint16 xs b₁ (by omega) (Nat.le_max_right _ _)
    (by simp only [b₁, List.length_append, List.length_replicate] at hc ⊢; omega)
  set ys := (xs.reverse.map fun x => leBytes 2 x.toNat).flatten
  have hys : ys.length = 2 * xs.length := by rw [length_flatten_map_leBytes, List.length_reverse]
  have h₃ := endVector_of_nested (b := { b₁ with bytes := ys ++ b₁.bytes }) xs.length rfl
    (by simp only [b₁, List.length_append, List.length_replicate] at hc ⊢; omega)
  refine ⟨b₁, _, _, h₁, h₂, h₃, ?_⟩
  have hs : b.bytes <:+ leBytes 4 xs.length ++ (ys ++ b₁.bytes) := ⟨leBytes 4 xs.length ++ ys ++ List.replicate k 0, by
    simp only [b₁, List.append_assoc]⟩
  refine ⟨hR.of_grows (grows_of_bytes hs rfl rfl hR.nested.symm rfl rfl (Nat.max_assoc ..) (by decide)),
    hs, by simp only [List.length_append, length_leBytes, hys, hl₁]; omega, ?_⟩
  rw [List.map_map, ← List.append_assoc]
  exact holdsAt_front _ _

/-- `StartVector(4, n, 4)`, `PrependUOffsetT` of the offsets from the last to the first, and
`EndVector(n)`: entry `j` of the vector, `4 * (j + 1)` bytes into it, points to `ts[j]`. -/
theorem offsetVector_ready (hR : b.Ready) (ts : List Nat) (hts : ∀ t ∈ ts, t ≤ b.bytes.length)
    (h : b.bytes.length + 4 * ts.length + 24 ≤ 2 ^ 30) :
    ∃ b₁ b₂ b', b.startVector 4 ts.length 4 = some b₁ ∧
      ts.reverse.foldlM (fun b u => b.prependUOffsetT u) b₁ = some b₂ ∧
      b₂.endVector ts.length = some (b', b'.bytes.length) ∧ b'.Ready ∧ b.bytes <:+ b'.bytes ∧
      b.bytes.length + 4 * ts.length + 4 ≤ b'.bytes.length ∧ b'.bytes.length ≤ b.bytes.length + 4 * ts.length + 8 ∧
      HoldsAt b'.bytes b'.bytes.length (leBytes 4 ts.length) ∧
      ∀ j (hj : j < ts.length), HoldsAt b'.bytes (b'.bytes.length - 4 * (j + 1))
        (leBytes 4 (b'.bytes.length - 4 * (j + 1) - ts[j])) := by
  obtain ⟨c, hc, h₁⟩ := b.startVector_spec hR.nested (Or.inr rfl)
    (show b.bytes.length + 4 * ts.length + 16 ≤ 2 ^ 30 by omega)
  have hk := alignSize_lt 4 (4 * ts.length) b.bytes.length (by decide)
  have hk4 : (alignSize 4 (4 * ts.length) b.bytes.length + b.bytes.length) % 4 = 0 := by
    simp only [alignSize]; omega
  generalize alignSize 4 (4 * ts.length) b.bytes.length = k at hk hk4 h₁ hc
  set b₁ : Builder := { b with
    nested := true, minalign := max (max b.minalign 4) 4, capacity := c, bytes := List.replicate k 0 ++ b.bytes }
  have hl₁ : b₁.bytes.length = k + b.bytes.length := by simp only [b₁, List.length_append, List.length_replicate]
  obtain ⟨ws, hws, h₂, hat⟩ := foldlM_prependUOffsetT ts.reverse b₁ (by omega) (Nat.le_max_right _ _)
    (by simp only [b₁, List.length_reverse, List.length_append, List.length_replicate] at hc ⊢; omega)
    (fun u hu => by have := hts u (List.mem_reverse.mp hu); omega)
  rw [List.length_reverse] at hws
  have h₃ := endVector_of_nested (b := { b₁ with bytes := ws ++ b₁.bytes }) ts.length rfl
    (by simp only [b₁, List.length_append, List.length_replicate] at hc ⊢; omega)
  refine ⟨b₁, _, _, h₁, h₂, h₃, ?_⟩
  have hs : b.bytes <:+ leBytes 4 ts.length ++ (ws ++ b₁.bytes) := ⟨leBytes 4 ts.length ++ ws ++ List.replicate k 0, by
    simp only [b₁, List.append_assoc]⟩
  refine ⟨hR.of_grows (grows_of_bytes hs rfl rfl hR.nested.symm rfl rfl (Nat.max_assoc ..) (by decide)),
    hs, by simp only [List.length_append, length_leBytes, hws, hl₁]; omega,
    by simp only [List.length_append, length_leBytes, hws, hl₁]; omega, holdsAt_front _ _, fun j hj => ?_⟩
  have hidx : ts.length - 1 - j < ts.reverse.length := by rw [List.length_reverse]; omega
  have hrev : ts.reverse[ts.length - 1 - j] = ts[j] := by
    rw [List.getElem_reverse]; congr 1; omega
  have := (hat (ts.length - 1 - j) hidx).mono (List.suffix_append (leBytes 4 ts.length) _)
  rw [hrev, hl₁, show k + b.bytes.length + 4 * (ts.length - 1 - j + 1) =
    (leBytes 4 ts.length ++ (ws ++ b₁.bytes)).length - 4 * (j + 1) by
      simp only [List.length_append, length_leBytes, hws, hl₁]; omega] at this
  exact this

/-! ## Reading -/

variable {bs : List UInt8} {oo : Nat} {fs : List FieldWrite} {s x : Nat}

/-- A string or byte-string field reads back as the bytes behind the length it points to. -/
theorem TableAt.bytesField (h : TableAt bs oo fs) (hb : bs.length < 2 ^ 31)
    (hnd : (fs.map FieldWrite.slot).Nodup) (hf : FieldWrite.offset s x ∈ fs) {ys : List UInt8}
    (hys : HoldsAt bs x (leBytes 4 ys.length ++ ys)) :
    (Table.mk bs (bs.length - oo)).bytesField s = some ys := by
  have hle := hys.le
  simp only [List.length_append, length_leBytes] at hle
  obtain ⟨e, he, he0, hxl, hind⟩ := h.indirect hb hnd hf (by omega)
  have hlen := hys.left.getLE
  rw [length_leBytes, leValue_leBytes_of_lt (by omega)] at hlen
  have hsl := hys.right.slice
  rw [length_leBytes, show bs.length - (x - 4) = bs.length - x + 4 by omega] at hsl
  simp only [Table.bytesField, Table.byteVector, Option.bind_eq_bind, he, Option.some_bind, if_pos he0, hind,
    hlen, hsl]

/-- The length of a vector field is the one written in front of its elements. -/
theorem TableAt.vectorFieldLen (h : TableAt bs oo fs) (hb : bs.length < 2 ^ 31)
    (hnd : (fs.map FieldWrite.slot).Nodup) (hf : FieldWrite.offset s x ∈ fs) {n : Nat}
    (hv : HoldsAt bs x (leBytes 4 n)) (hn : n < 2 ^ 32) :
    (Table.mk bs (bs.length - oo)).vectorFieldLen s = some n := by
  have hle := hv.le
  rw [length_leBytes] at hle
  obtain ⟨e, he, he0, hxl, hind⟩ := h.indirect hb hnd hf (by omega)
  have hlen := hv.getLE
  rw [length_leBytes, leValue_leBytes_of_lt hn] at hlen
  simp only [Table.vectorFieldLen, Table.vectorLen, Option.bind_eq_bind, he, Option.some_bind, if_pos he0,
    hind, hlen]

/-- Element `j` of a vector of `w`-byte scalars reads back as the `j`-th one written behind the
length. -/
theorem TableAt.scalarVectorAt (h : TableAt bs oo fs) (hb : bs.length < 2 ^ 31)
    (hnd : (fs.map FieldWrite.slot).Nodup) (hf : FieldWrite.offset s x ∈ fs) {w n : Nat} {xs : List Nat}
    (hv : HoldsAt bs x (leBytes 4 n ++ (xs.map (leBytes w)).flatten)) {j : Nat} (hj : j < xs.length)
    (hx : xs[j] < 256 ^ w) :
    (Table.mk bs (bs.length - oo)).scalarVectorAt w s j = some xs[j] := by
  have hle := hv.le
  simp only [List.length_append, length_leBytes, length_flatten_leBytes] at hle
  have hwj := Nat.mul_le_mul_left w hj.le
  obtain ⟨e, he, he0, hxl, hind⟩ := h.indirect hb hnd hf (by omega)
  have hel := hv.right.entry hj
  have hle' := hel.le
  rw [length_leBytes] at hle'
  have hget := hel.getLE
  rw [length_leBytes, leValue_leBytes_of_lt hx, length_leBytes,
    show bs.length - (x - 4 - w * j) = bs.length - x + 4 + j * w by rw [Nat.mul_comm j w]; omega] at hget
  simp only [Table.scalarVectorAt, Table.vector, Option.bind_eq_bind, he, Option.some_bind, if_pos he0, hind,
    Option.pure_def, hget]

/-- Element `j` of a vector of tables is the table its entry points to. -/
theorem TableAt.tableVectorAt (h : TableAt bs oo fs) (hb : bs.length < 2 ^ 31)
    (hnd : (fs.map FieldWrite.slot).Nodup) (hf : FieldWrite.offset s x ∈ fs) {j u : Nat}
    (hv : HoldsAt bs (x - 4 * (j + 1)) (leBytes 4 (x - 4 * (j + 1) - u))) (hu : u ≤ x - 4 * (j + 1)) :
    (Table.mk bs (bs.length - oo)).tableVectorAt s j = some (some ⟨bs, bs.length - u⟩) := by
  have hle := hv.le
  rw [length_leBytes] at hle
  obtain ⟨e, he, he0, hxl, hind⟩ := h.indirect hb hnd hf (by omega)
  have hget := hv.getLE
  rw [length_leBytes, leValue_leBytes_of_lt (by omega),
    show bs.length - (x - 4 * (j + 1)) = bs.length - x + 4 + j * 4 by omega] at hget
  simp only [Table.tableVectorAt, Table.vector, Option.bind_eq_bind, he, Option.some_bind, if_pos he0, hind,
    Option.pure_def]
  simp only [Table.indirect, Option.bind_eq_bind, hget, Option.pure_def, Option.some_bind, Option.some.injEq,
    Table.mk.injEq, true_and]
  omega

end Eventing.Flatbuffers
