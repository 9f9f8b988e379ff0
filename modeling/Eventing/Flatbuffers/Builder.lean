import Eventing.Flatbuffers.Bytes
import Mathlib.Data.Nat.Bitwise

/-! # The flatbuffers builder

The consumer writes every frame for the worker with a `flatbuffers.Builder`.
The builder fills a byte slice from its back: strings, vectors and tables are
prepended one after the other, each table ends with a vtable of its fields'
positions, and `Finish` prepends the offset of the root table. A reference to an
object already written is its offset, its distance from the end of the slice.

## Implementation notes

The runtime lies outside the sources; this is the Go runtime the code imports.
`bytes` is `Bytes[head:]`, the part written so far, and `capacity` is
`len(Bytes)`: growing the slice moves the written part to the end of a slice
twice as long, so it changes `capacity` only. A panic is `none`. `UOffsetT`
and `SOffsetT` arithmetic is on `Nat` and `Int`: every slice the builder can
grow stays below `2 ^ 31` bytes, where none of it wraps. The vtable search
compares fields by recursion on both lists, which is the loop of `vtableEqual`
with its length test in front.
-/

namespace Eventing.Flatbuffers

/-- The state of a `flatbuffers.Builder`. -/
structure Builder where
  bytes : List UInt8
  capacity : Nat
  minalign : Nat
  vtable : List Nat
  objectEnd : Nat
  vtables : List Nat
  nested : Bool
  finished : Bool
  deriving DecidableEq, Repr

namespace Builder

/-- A builder after `Reset`, on a slice of `capacity` bytes. -/
def reset (capacity : Nat) : Builder := ⟨[], capacity, 1, [], 0, [], false, false⟩

/-- `Offset()`: the number of bytes written. -/
def offset (b : Builder) : Nat := b.bytes.length

/-- `head`: the index in the slice where the written part starts. -/
def head (b : Builder) : Nat := b.capacity - b.bytes.length

/-- `growByteBuffer`: a slice twice as long (one byte for an empty one), the written part
moved to its end. A slice with bit 30 or 31 of its length set panics. -/
def growByteBuffer (b : Builder) : Option Builder :=
  if b.capacity &&& 0xC0000000 = 0 then
    some { b with capacity := if b.capacity = 0 then 1 else 2 * b.capacity }
  else none

theorem capacity_lt_of_growByteBuffer {b b' : Builder} (h : b.growByteBuffer = some b') :
    b.capacity < b'.capacity := by
  unfold growByteBuffer at h
  split at h
  · cases h; dsimp only; split <;> omega
  · cases h

/-- The loop of `Prep` that grows the slice until more than `need` bytes are free. -/
def growLoop (need : Nat) (b : Builder) : Option Builder :=
  if b.head ≤ need then
    match h : b.growByteBuffer with
    | some b' => growLoop need b'
    | none => none
  else some b
termination_by need + 1 + b.offset - b.capacity
decreasing_by
  have hc := capacity_lt_of_growByteBuffer h
  have hb : b'.bytes = b.bytes := by
    unfold growByteBuffer at h; split at h <;> cases h; rfl
  simp only [offset, head, hb] at *
  omega

/-- `head -= len(xs)` and the copy of `xs` to `Bytes[head:]`, as `PlaceByte`, `PlaceUint16`
and the rest write; a slice without room for it panics. -/
def place (xs : List UInt8) (b : Builder) : Option Builder :=
  if b.offset + xs.length ≤ b.capacity then some { b with bytes := xs ++ b.bytes } else none

/-- `Pad(n)`: `n` zero bytes. -/
def pad (n : Nat) (b : Builder) : Option Builder := b.place (List.replicate n 0)

/-- The `alignSize` of `Prep(size, additionalBytes)` at offset `o`: the zero bytes after which
`size` bytes written behind `additionalBytes` more are aligned to `size`. It is Go's
`(^x + 1) & (size - 1)` for the powers of two `Prep` is called with. -/
def alignSize (size additionalBytes o : Nat) : Nat := (size - (o + additionalBytes) % size) % size

/-- `Prep(size, additionalBytes)`: grow the slice until the padding, `size` and
`additionalBytes` fit, then pad. -/
def prep (size additionalBytes : Nat) (b : Builder) : Option Builder :=
  let b := { b with minalign := max b.minalign size }
  let n := alignSize size additionalBytes b.offset
  (growLoop (n + size + additionalBytes) b).bind (pad n)

/-- `PrependUint16`, `PrependInt32` and the other scalar prepends: `Prep(w, 0)`, then the `w`
bytes of `x`. -/
def prependScalar (w x : Nat) (b : Builder) : Option Builder :=
  (b.prep w 0).bind (place (leBytes w x))

/-- `PrependUint16(x)`. -/
def prependUint16 (x : UInt16) (b : Builder) : Option Builder := b.prependScalar 2 x.toNat

/-- `PrependVOffsetT(x)`. -/
def prependVOffsetT (x : Nat) (b : Builder) : Option Builder := b.prependScalar 2 x

/-- `PrependUOffsetT(off)`: the distance from the new slot to the object at offset `off`. -/
def prependUOffsetT (off : Nat) (b : Builder) : Option Builder := do
  let b ← b.prep 4 0
  if off ≤ b.offset then b.place (leBytes 4 (b.offset - off + 4)) else none

/-- `PrependSOffsetT(off)`, which `WriteVtable` calls with `0` for the slot it fills later. -/
def prependSOffsetT (off : Nat) (b : Builder) : Option Builder := do
  let b ← b.prep 4 0
  if off ≤ b.offset then b.place (leInt 4 (b.offset - off + 4)) else none

/-- `StartVector(elemSize, numElems, alignment)`. -/
def startVector (elemSize numElems alignment : Nat) (b : Builder) : Option Builder :=
  if b.nested then none
  else ({ b with nested := true }.prep 4 (elemSize * numElems)).bind
    (prep alignment (elemSize * numElems))

/-- `EndVector(vectorNumElems)`: the length in front of the elements. -/
def endVector (vectorNumElems : Nat) (b : Builder) : Option (Builder × Nat) :=
  if b.nested then
    (b.place (leBytes 4 vectorNumElems)).map fun b => ({ b with nested := false }, b.offset)
  else none

/-- `CreateString(s)`: the bytes of `s` and a zero byte, behind their length. -/
def createString (s : List UInt8) (b : Builder) : Option (Builder × Nat) :=
  if b.nested then none else do
    let b ← { b with nested := true }.prep 4 (s.length + 1)
    let b ← b.place [0]
    let b ← b.place s
    b.endVector s.length

/-- `CreateByteString(s)`: the body of `CreateString`, on a byte slice. -/
def createByteString (s : List UInt8) (b : Builder) : Option (Builder × Nat) := b.createString s

/-- `Finish(rootTable)`: the offset of the root table in front of everything. -/
def finish (rootTable : Nat) (b : Builder) : Option Builder :=
  if b.nested then none else do
    let b ← b.prep b.minalign 4
    let b ← b.prependUOffsetT rootTable
    return { b with finished := true }

/-- `FinishedBytes()`. -/
def finishedBytes (b : Builder) : Option (List UInt8) := if b.finished then some b.bytes else none

/-! ## What each call writes -/

theorem land_mask_of_lt {c : Nat} (h : c < 2 ^ 30) : c &&& 0xC0000000 = 0 := by
  apply Nat.eq_of_testBit_eq
  intro i
  rw [Nat.testBit_and, Nat.zero_testBit, show (0xC0000000 : Nat) = 3 <<< 30 from rfl,
    Nat.testBit_shiftLeft]
  by_cases hi : i < 30
  · simp [hi]
  · rw [Nat.testBit_eq_false_of_lt (lt_of_lt_of_le h (Nat.pow_le_pow_right (by decide) (by omega))),
      Bool.false_and]

theorem growByteBuffer_of_lt {b : Builder} (h : b.capacity < 2 ^ 30) :
    b.growByteBuffer = some { b with capacity := if b.capacity = 0 then 1 else 2 * b.capacity } := by
  rw [growByteBuffer, if_pos (land_mask_of_lt h)]

@[simp] theorem offset_eq (b : Builder) : b.offset = b.bytes.length := rfl

theorem growLoop_spec (need : Nat) (b : Builder) (h : b.bytes.length + need < 2 ^ 30) :
    ∃ c, b.capacity ≤ c ∧ b.bytes.length + need < c ∧ growLoop need b = some { b with capacity := c } := by
  induction b using growLoop.induct need with
  | case1 b hh b' hg ih =>
    have hcap : b.capacity < 2 ^ 30 := by simp only [head, offset] at hh h; omega
    rw [growByteBuffer_of_lt hcap] at hg
    cases hg
    obtain ⟨c, hc₀, hc, he⟩ := ih h
    refine ⟨c, le_trans (by dsimp only; split <;> omega) hc₀, hc, ?_⟩
    rw [growLoop, if_pos hh]
    split
    · next b'' hg' => rw [growByteBuffer_of_lt hcap] at hg'; cases hg'; exact he
    · next hg' => rw [growByteBuffer_of_lt hcap] at hg'; cases hg'
  | case2 b hh hg =>
    have hcap : b.capacity < 2 ^ 30 := by simp only [head, offset] at hh h; omega
    rw [growByteBuffer_of_lt hcap] at hg
    cases hg
  | case3 b hh =>
    refine ⟨b.capacity, le_rfl, by simp only [head, offset] at hh ⊢; omega, ?_⟩
    rw [growLoop, if_neg hh]

theorem lt_of_land_mask {c : Nat} (h : c &&& 0xC0000000 = 0) (h₂ : c < 2 ^ 31) : c < 2 ^ 30 := by
  by_contra hlt
  have h30 : c.testBit 30 = true := by
    rw [Nat.testBit_to_div_mod, show c / 2 ^ 30 = 1 by omega]; rfl
  have := congrArg (Nat.testBit · 30) h
  simp only [Nat.testBit_and, h30, Nat.zero_testBit] at this
  exact absurd this (by decide)

/-- A slice below two gigabytes never grows to hold `need` free bytes beyond two gigabytes:
`growByteBuffer` panics first. -/
theorem growLoop_eq_none (need : Nat) (b : Builder) (hc : b.capacity < 2 ^ 31)
    (h : 2 ^ 31 ≤ b.bytes.length + need) : growLoop need b = none := by
  induction b using growLoop.induct need with
  | case1 b hh b' hg ih =>
    have hcap := lt_of_land_mask (by unfold growByteBuffer at hg; split at hg <;> simp_all) hc
    rw [growByteBuffer_of_lt hcap] at hg
    cases hg
    rw [growLoop, if_pos hh]
    split
    · next b'' hg' =>
      rw [growByteBuffer_of_lt hcap] at hg'
      cases hg'
      exact ih (by dsimp only; split <;> omega) h
    · rfl
  | case2 b hh hg =>
    rw [growLoop, if_pos hh]
    split
    · next b'' hg' => rw [hg] at hg'; cases hg'
    · rfl
  | case3 b hh =>
    simp only [head] at hh
    omega

theorem alignSize_lt (size additionalBytes o : Nat) (hs : 0 < size) :
    alignSize size additionalBytes o < size := Nat.mod_lt _ hs

theorem place_of_le {b : Builder} {xs : List UInt8} (h : b.bytes.length + xs.length ≤ b.capacity) :
    b.place xs = some { b with bytes := xs ++ b.bytes } := if_pos h

/-- Below a gigabyte, `Prep` pads with `alignSize` zeros and leaves room for what follows. -/
theorem prep_spec (b : Builder) {size additionalBytes : Nat} (hs : 0 < size)
    (h : b.bytes.length + 2 * size + additionalBytes ≤ 2 ^ 30) :
    ∃ c, b.capacity ≤ c ∧ b.bytes.length + alignSize size additionalBytes b.bytes.length + size + additionalBytes < c ∧
      b.prep size additionalBytes = some { b with
        minalign := max b.minalign size, capacity := c,
        bytes := List.replicate (alignSize size additionalBytes b.bytes.length) 0 ++ b.bytes } := by
  have hk := alignSize_lt size additionalBytes b.bytes.length hs
  obtain ⟨c, hc₀, hc, he⟩ := growLoop_spec (alignSize size additionalBytes b.bytes.length + size + additionalBytes)
    { b with minalign := max b.minalign size } (show b.bytes.length + _ < _ by omega)
  refine ⟨c, hc₀, by simpa only [offset, Nat.add_assoc] using hc, ?_⟩
  show (growLoop (alignSize size additionalBytes b.bytes.length + size + additionalBytes)
    { b with minalign := max b.minalign size }).bind (pad (alignSize size additionalBytes b.bytes.length)) = _
  rw [he, Option.some_bind, pad, place_of_le]
  simp only [offset, List.length_replicate] at hc ⊢
  omega

theorem prependScalar_spec (b : Builder) {w : Nat} (x : Nat) (hw : 0 < w) (h : b.bytes.length + 3 * w ≤ 2 ^ 30) :
    ∃ c, b.capacity ≤ c ∧ b.prependScalar w x = some { b with
      minalign := max b.minalign w, capacity := c,
      bytes := leBytes w x ++ List.replicate (alignSize w 0 b.bytes.length) 0 ++ b.bytes } := by
  obtain ⟨c, hc₀, hc, he⟩ := b.prep_spec hw (show b.bytes.length + 2 * w + 0 ≤ 2 ^ 30 by omega)
  refine ⟨c, hc₀, ?_⟩
  rw [prependScalar, he, Option.some_bind, place_of_le]
  · simp only [List.append_assoc]
  · simp only [offset, List.length_append, List.length_replicate, length_leBytes] at hc ⊢; omega

theorem prependUOffsetT_spec (b : Builder) {off : Nat} (hoff : off ≤ b.bytes.length)
    (h : b.bytes.length + 8 ≤ 2 ^ 30) :
    ∃ c, b.capacity ≤ c ∧ b.prependUOffsetT off = some { b with
      minalign := max b.minalign 4, capacity := c,
      bytes := leBytes 4 (alignSize 4 0 b.bytes.length + b.bytes.length - off + 4) ++
        List.replicate (alignSize 4 0 b.bytes.length) 0 ++ b.bytes } := by
  obtain ⟨c, hc₀, hc, he⟩ := b.prep_spec (by decide : 0 < 4) (show b.bytes.length + 2 * 4 + 0 ≤ 2 ^ 30 by omega)
  refine ⟨c, hc₀, ?_⟩
  simp only [prependUOffsetT, he, Option.bind_eq_bind, Option.some_bind, offset, List.length_append,
    List.length_replicate] at hc hoff ⊢
  rw [if_pos (by omega), place_of_le]
  · simp only [List.append_assoc]
  · simp only [offset, List.length_append, List.length_replicate, length_leBytes]; omega

theorem prependSOffsetT_zero_spec (b : Builder) (h : b.bytes.length + 8 ≤ 2 ^ 30) :
    ∃ c, b.capacity ≤ c ∧ b.prependSOffsetT 0 = some { b with
      minalign := max b.minalign 4, capacity := c,
      bytes := leInt 4 ((alignSize 4 0 b.bytes.length + b.bytes.length : Nat) + 4) ++
        List.replicate (alignSize 4 0 b.bytes.length) 0 ++ b.bytes } := by
  obtain ⟨c, hc₀, hc, he⟩ := b.prep_spec (by decide : 0 < 4) (show b.bytes.length + 2 * 4 + 0 ≤ 2 ^ 30 by omega)
  refine ⟨c, hc₀, ?_⟩
  simp only [prependSOffsetT, he, Option.bind_eq_bind, Option.some_bind, offset, List.length_append,
    List.length_replicate, Nat.zero_le, if_true, Nat.sub_zero] at hc ⊢
  rw [place_of_le]
  · simp only [List.append_assoc, Int.natCast_zero, Int.sub_zero]
  · simp only [offset, List.length_append, List.length_replicate, length_leInt]; omega

theorem endVector_of_nested {b : Builder} (n : Nat) (hn : b.nested = true)
    (h : b.bytes.length + 4 ≤ b.capacity) :
    b.endVector n = some ({ b with nested := false, bytes := leBytes 4 n ++ b.bytes }, (leBytes 4 n ++ b.bytes).length) := by
  rw [endVector, if_pos hn, place_of_le (by rw [length_leBytes]; exact h), Option.map_some']
  rfl

theorem createString_spec (b : Builder) (s : List UInt8) (hn : b.nested = false)
    (h : b.bytes.length + s.length + 16 ≤ 2 ^ 30) :
    ∃ c, b.capacity ≤ c ∧ b.createString s = some ({ b with
      minalign := max b.minalign 4, capacity := c,
      bytes := leBytes 4 s.length ++ s ++ 0 :: List.replicate (alignSize 4 (s.length + 1) b.bytes.length) 0 ++
        b.bytes },
      b.bytes.length + alignSize 4 (s.length + 1) b.bytes.length + s.length + 5) := by
  obtain ⟨c, hc₀, hc, he⟩ := ({ b with nested := true } : Builder).prep_spec (by decide : 0 < 4)
    (show b.bytes.length + 2 * 4 + (s.length + 1) ≤ 2 ^ 30 by omega)
  refine ⟨c, hc₀, ?_⟩
  simp only [offset] at hc
  rw [createString, if_neg (by simp [hn])]
  simp only [Option.bind_eq_bind, he, Option.some_bind]
  rw [place_of_le (by simp only [offset, List.length_append, List.length_replicate, List.length_singleton]; omega),
    Option.some_bind, place_of_le (by simp only [offset, List.length_append, List.length_replicate, List.length_singleton]; omega),
    Option.some_bind, endVector_of_nested _ rfl (by simp only [offset, List.length_append, List.length_replicate, List.length_singleton]; omega)]
  simp only [offset, hn, List.length_append, List.length_replicate, List.length_singleton, List.append_assoc,
    List.singleton_append, List.cons_append, List.nil_append, List.length_cons, Option.some.injEq,
    Prod.mk.injEq, true_and, length_leBytes]
  omega

theorem startVector_spec (b : Builder) {elemSize numElems a : Nat} (hn : b.nested = false)
    (ha : a = 2 ∨ a = 4) (h : b.bytes.length + elemSize * numElems + 16 ≤ 2 ^ 30) :
    ∃ c, b.bytes.length + alignSize 4 (elemSize * numElems) b.bytes.length + 4 + elemSize * numElems < c ∧
      b.startVector elemSize numElems a = some { b with
        nested := true, minalign := max (max b.minalign 4) a, capacity := c,
        bytes := List.replicate (alignSize 4 (elemSize * numElems) b.bytes.length) 0 ++ b.bytes } := by
  generalize hm : elemSize * numElems = m at h ⊢
  obtain ⟨c, hc₀, hc, he⟩ := ({ b with nested := true } : Builder).prep_spec (by decide : 0 < 4)
    (show b.bytes.length + 2 * 4 + m ≤ 2 ^ 30 by omega)
  have ha0 : 0 < a := by omega
  have hk := alignSize_lt 4 m b.bytes.length (by decide)
  obtain ⟨c', hc₀', hc', he'⟩ := Builder.prep_spec { b with
      nested := true, minalign := max b.minalign 4, capacity := c,
      bytes := List.replicate (alignSize 4 m b.bytes.length) 0 ++ b.bytes } ha0
    (show _ + 2 * a + m ≤ 2 ^ 30 by
      simp only [offset, List.length_append, List.length_replicate] at h hk ⊢
      omega)
  have hpad : alignSize a m (List.replicate (alignSize 4 m b.bytes.length) 0 ++ b.bytes).length = 0 := by
    simp only [alignSize, offset, List.length_append, List.length_replicate]
    rcases ha with rfl | rfl <;> omega
  refine ⟨c', by simp only [offset] at hc hc₀' ⊢; omega, ?_⟩
  rw [startVector, if_neg (by simp [hn]), hm, he, Option.some_bind]
  rw [he']
  simp only [offset, hpad, List.replicate_zero, List.nil_append]

theorem growLoop_of_lt {need : Nat} {b : Builder} (h : need < b.head) : growLoop need b = some b := by
  rw [growLoop, if_neg (by omega)]

/-- With the room reserved and the offset aligned, `Prep` writes nothing. -/
theorem prep_of_aligned {b : Builder} {size additionalBytes : Nat}
    (hal : alignSize size additionalBytes b.bytes.length = 0)
    (h : b.bytes.length + size + additionalBytes < b.capacity) :
    b.prep size additionalBytes = some { b with minalign := max b.minalign size } := by
  show (growLoop (alignSize size additionalBytes b.bytes.length + size + additionalBytes)
    { b with minalign := max b.minalign size }).bind (pad (alignSize size additionalBytes b.bytes.length)) = _
  rw [growLoop_of_lt (by simp only [head]; omega), Option.some_bind, hal, pad, place_of_le (by simp; omega)]
  rfl

theorem finish_spec (b : Builder) {root : Nat} (hn : b.nested = false) (hm : 0 < b.minalign)
    (hm8 : b.minalign ≤ 8) (hr : root ≤ b.bytes.length) (h : b.bytes.length + 32 ≤ 2 ^ 30) :
    ∃ b', b.finish root = some b' ∧ b'.finished = true ∧ b.bytes <:+ b'.bytes ∧
      b'.bytes.length ≤ b.bytes.length + 16 ∧ getLE b'.bytes 0 4 = some (b'.bytes.length - root) := by
  obtain ⟨c, -, -, he⟩ := b.prep_spec hm (show b.bytes.length + 2 * b.minalign + 4 ≤ 2 ^ 30 by omega)
  have hk := alignSize_lt b.minalign 4 b.bytes.length hm
  obtain ⟨c', -, he'⟩ := Builder.prependUOffsetT_spec { b with
      minalign := max b.minalign b.minalign, capacity := c,
      bytes := List.replicate (alignSize b.minalign 4 b.bytes.length) 0 ++ b.bytes }
    (show root ≤ (List.replicate _ 0 ++ b.bytes).length by simp only [List.length_append, List.length_replicate]; omega)
    (by simp only [List.length_append, List.length_replicate]; omega)
  rw [finish, if_neg (by simp [hn])]
  simp only [Option.bind_eq_bind, he, Option.some_bind, he', Option.pure_def]
  have hk' := alignSize_lt 4 0 (List.replicate (alignSize b.minalign 4 b.bytes.length) 0 ++ b.bytes).length (by decide)
  refine ⟨_, rfl, rfl, (List.suffix_append _ _).trans (List.suffix_append _ _), ?_, ?_⟩
  · simp only [List.length_append, List.length_replicate, length_leBytes] at hk' ⊢
    omega
  simp only [List.length_append, List.length_replicate] at hk' ⊢
  unfold Flatbuffers.getLE
  rw [if_pos (by simp only [List.length_append, length_leBytes, List.length_replicate]; omega), List.drop_zero,
    List.append_assoc, List.take_left' (length_leBytes _ _), leValue_leBytes_of_lt (by omega)]
  simp only [List.length_append, length_leBytes, List.length_replicate, Option.some.injEq]
  omega

theorem foldlM_prependUint16 (xs : List UInt16) (b : Builder) (hev : b.bytes.length % 2 = 0)
    (hm : 2 ≤ b.minalign) (hroom : b.bytes.length + 2 * xs.length + 2 < b.capacity) :
    xs.foldlM (fun b x => b.prependUint16 x) b =
      some { b with bytes := (xs.reverse.map fun x => leBytes 2 x.toNat).flatten ++ b.bytes } := by
  induction xs generalizing b with
  | nil => rfl
  | cons x xs ih =>
    have hal : alignSize 2 0 b.bytes.length = 0 := by simp only [alignSize]; omega
    have hstep : b.prependUint16 x = some { b with bytes := leBytes 2 x.toNat ++ b.bytes } := by
      rw [prependUint16, prependScalar, prep_of_aligned hal (by simp only [List.length_cons] at hroom; omega),
        Option.some_bind, place_of_le (by simp only [List.length_cons, length_leBytes, offset] at hroom ⊢; omega),
        Nat.max_eq_left hm]
    simp only [List.foldlM_cons, hstep, Option.bind_eq_bind, Option.some_bind]
    rw [ih]
    · simp only [List.reverse_cons, List.map_append, List.flatten_append, List.map_cons, List.map_nil,
        List.flatten_cons, List.flatten_nil, List.append_nil, List.append_assoc]
    · simp only [length_leBytes, List.length_append]; omega
    · exact hm
    · simp only [List.length_cons, length_leBytes, List.length_append] at hroom ⊢; omega

theorem foldlM_prependUOffsetT (us : List Nat) (b : Builder) (h4 : b.bytes.length % 4 = 0)
    (hm : 4 ≤ b.minalign) (hroom : b.bytes.length + 4 * us.length + 4 < b.capacity)
    (hus : ∀ u ∈ us, u ≤ b.bytes.length) :
    ∃ ws, ws.length = 4 * us.length ∧
      us.foldlM (fun b u => b.prependUOffsetT u) b = some { b with bytes := ws ++ b.bytes } ∧
      ∀ i (hi : i < us.length), HoldsAt (ws ++ b.bytes) (b.bytes.length + 4 * (i + 1))
        (leBytes 4 (b.bytes.length + 4 * (i + 1) - us[i])) := by
  induction us generalizing b with
  | nil => exact ⟨[], rfl, rfl, fun i hi => absurd hi (Nat.not_lt_zero i)⟩
  | cons u us ih =>
    have hu := hus u (List.mem_cons_self u us)
    have hal : alignSize 4 0 b.bytes.length = 0 := by simp only [alignSize]; omega
    have hstep : b.prependUOffsetT u =
        some { b with bytes := leBytes 4 (b.bytes.length + 4 - u) ++ b.bytes } := by
      simp only [List.length_cons] at hroom
      simp only [prependUOffsetT, Option.bind_eq_bind, prep_of_aligned hal (by omega), Option.some_bind,
        offset_eq, if_pos hu, Nat.max_eq_left hm]
      rw [place_of_le (by simp only [offset_eq, length_leBytes]; omega)]
      congr 4
      omega
    obtain ⟨ws, hws, he, hat⟩ := ih { b with bytes := leBytes 4 (b.bytes.length + 4 - u) ++ b.bytes }
      (by simp only [List.length_append, length_leBytes]; omega) hm
      (by simp only [List.length_append, length_leBytes, List.length_cons] at hroom ⊢; omega)
      (fun v hv => by simp only [List.length_append, length_leBytes]; have := hus v (List.mem_cons_of_mem u hv); omega)
    refine ⟨ws ++ leBytes 4 (b.bytes.length + 4 - u), by simp only [List.length_append, hws, length_leBytes, List.length_cons]; omega, ?_, ?_⟩
    · simp only [List.foldlM_cons, hstep, Option.bind_eq_bind, Option.some_bind, he, List.append_assoc]
    · intro i hi
      cases i with
      | zero =>
        have h := (holdsAt_front (leBytes 4 (b.bytes.length + 4 - u)) b.bytes).mono (List.suffix_append ws _)
        simpa only [List.append_assoc, List.length_append, length_leBytes, List.getElem_cons_zero,
          Nat.add_comm] using h
      | succ j =>
        have := hat j (by simp only [List.length_cons] at hi; omega)
        simp only [List.length_append, length_leBytes, List.append_assoc, List.getElem_cons_succ] at this ⊢
        rwa [show b.bytes.length + 4 * (j + 1 + 1) = 4 + b.bytes.length + 4 * (j + 1) by omega]

end Builder

end Eventing.Flatbuffers
