import Eventing.Flatbuffers.Builder
import Eventing.Flatbuffers.Table

/-! # Tables and their vtables

A table is written between `StartObject` and `EndObject`: each `Add…` call
prepends one field and records the field's offset in the vtable under
construction, and `EndObject` prepends the table's first word and the vtable,
or, when a vtable with the same entries was written before, points the first
word at that one. Reading a slot through the vtable then finds each field
written, and nothing in the slots left empty.

## Implementation notes

`ObjectAt` and `VtableAt` say where an object and its vtable lie, by offsets,
so that they survive everything written after them. `VtablesOK` is what the
vtable search relies on: every vtable it may reuse lies where it was written.
-/

namespace Eventing.Flatbuffers

namespace Builder

/-- `Slot(slotnum)`: the current field's offset goes into the vtable. -/
def slot (slotnum : Nat) (b : Builder) : Option Builder :=
  if slotnum < b.vtable.length then some { b with vtable := b.vtable.set slotnum b.offset }
  else none

/-- `PrependInt8Slot`, `PrependInt16Slot` and the other scalar field adds: the field is written
only when `x` differs from the default `d`. -/
def prependScalarSlot (w o x d : Nat) (b : Builder) : Option Builder :=
  if x ≠ d then (b.prependScalar w x).bind (slot o) else some b

/-- `PrependUOffsetTSlot(o, x, d)`. -/
def prependUOffsetTSlot (o x d : Nat) (b : Builder) : Option Builder :=
  if x ≠ d then (b.prependUOffsetT x).bind (slot o) else some b

/-- `StartObject(numfields)`. -/
def startObject (numfields : Nat) (b : Builder) : Option Builder :=
  if b.nested then none
  else
    some { b with
      nested := true, vtable := List.replicate numfields 0, objectEnd := b.offset, minalign := 1 }

/-- The vtable with its trailing zeros cut off, as `WriteVtable` slices it. -/
def trimVtable (vt : List Nat) : List Nat := (vt.reverse.dropWhile (· = 0)).reverse

/-- `vtableEqual(a, objectStart, b)`: the fields of the vtable being written against the
entries `b` of one already written, an absent field matching a zero entry only. -/
def vtableEqual (objectStart : Nat) : List Nat → List UInt8 → Bool
  | [], [] => true
  | a :: as, x₀ :: x₁ :: xs =>
      let x := leValue [x₀, x₁]
      ((x == 0 && a == 0) || (x : Int) == objectStart - a) && vtableEqual objectStart as xs
  | _, _ => false

/-- The search of `WriteVtable` through the vtables written so far, newest first, for one equal
to `vt`: its offset, or `none` when there is none. -/
def findVtable (bs : List UInt8) (vt : List Nat) (objectOffset : Nat) :
    List Nat → Option (Option Nat)
  | [] => some none
  | v :: vs => do
      let vt2Start := bs.length - v
      let vt2 ← slice bs (vt2Start + 4) (vt2Start + (← getLE bs vt2Start 2))
      if vtableEqual objectOffset vt vt2 then some (some v) else findVtable bs vt objectOffset vs

/-- `WriteSOffsetT(Bytes[p:], x)` into the part already written, at index `p` of `bytes`. -/
def writeAt (p : Nat) (xs : List UInt8) (b : Builder) : Option Builder :=
  if p + xs.length ≤ b.offset then
    some { b with bytes := b.bytes.take p ++ xs ++ b.bytes.drop (p + xs.length) }
  else none

/-- `WriteVtable`: the object's first word, then either a new vtable in front of it or a
reference to an equal one written before. Gives the object's offset. -/
def writeVtable (b : Builder) : Option (Builder × Nat) := do
  let b ← b.prependSOffsetT 0
  let objectOffset := b.offset
  let vt := trimVtable b.vtable
  match ← findVtable b.bytes vt objectOffset b.vtables.reverse with
  | none =>
    let b ← vt.reverse.foldlM
      (fun b off => b.prependVOffsetT (if off ≠ 0 then objectOffset - off else 0)) b
    let b ← b.prependVOffsetT (objectOffset - b.objectEnd)
    let b ← b.prependVOffsetT ((vt.length + 2) * 2)
    let b ← b.writeAt (b.offset - objectOffset) (leInt 4 (b.offset - objectOffset))
    return ({ b with vtables := b.vtables ++ [b.offset], vtable := [] }, objectOffset)
  | some existing =>
    let b ← b.writeAt 0 (leInt 4 ((existing : Int) - objectOffset))
    return ({ b with vtable := [] }, objectOffset)

/-- `EndObject()`. -/
def endObject (b : Builder) : Option (Builder × Nat) :=
  if b.nested then b.writeVtable.map fun (b, n) => ({ b with nested := false }, n) else none

theorem slot_of_lt {b : Builder} {o : Nat} (h : o < b.vtable.length) :
    b.slot o = some { b with vtable := b.vtable.set o b.bytes.length } := if_pos h

theorem startObject_of_not_nested {b : Builder} (n : Nat) (h : b.nested = false) :
    b.startObject n = some { b with
      nested := true, vtable := List.replicate n 0, objectEnd := b.bytes.length, minalign := 1 } := by
  simp [startObject, h]

end Builder

/-! ## Where objects lie -/

/-- The bytes of a vtable: its own size, the object's size, then one entry per field. -/
def vtableBytes (ents : List Nat) (objectSize : Nat) : List UInt8 :=
  leBytes 2 ((ents.length + 2) * 2) ++ leBytes 2 objectSize ++ (ents.map (leBytes 2)).flatten

/-- A vtable with the entries `ents` lies at offset `v` of `bs`. -/
def VtableAt (bs : List UInt8) (v : Nat) (ents : List Nat) : Prop :=
  (∃ objectSize, HoldsAt bs v (vtableBytes ents objectSize)) ∧ (ents.length + 2) * 2 < 2 ^ 16 ∧
    ∀ e ∈ ents, e < 2 ^ 16

/-- The object at offset `oo` of `bs` starts with the signed distance to a vtable with the
entries `ents`. -/
def ObjectAt (bs : List UInt8) (oo : Nat) (ents : List Nat) : Prop :=
  ∃ v : Nat, HoldsAt bs oo (leInt 4 ((v : Int) - oo)) ∧ VtableAt bs v ents

/-- Every vtable the builder keeps for reuse lies where it was written, with entries below its
own offset. -/
def VtablesOK (b : Builder) : Prop :=
  ∀ v ∈ b.vtables, ∃ ents, VtableAt b.bytes v ents ∧ ∀ e ∈ ents, e < v

variable {bs bs' : List UInt8} {o oo : Nat} {ents : List Nat}

/-- Entry `i` of a run of `w`-byte entries lies `w * i` bytes into it. -/
theorem HoldsAt.entry {w : Nat} {xs : List Nat} (h : HoldsAt bs o (xs.map (leBytes w)).flatten) {i : Nat}
    (hi : i < xs.length) : HoldsAt bs (o - w * i) (leBytes w xs[i]) := by
  induction xs generalizing o i with
  | nil => exact absurd hi (Nat.not_lt_zero i)
  | cons x xs ih =>
    simp only [List.map_cons, List.flatten_cons] at h
    cases i with
    | zero => exact h.left
    | succ i =>
      have := ih h.right (by simpa using hi)
      rwa [length_leBytes, Nat.sub_sub, Nat.add_comm w (w * i), ← Nat.mul_add_one] at this

@[simp] theorem length_flatten_leBytes (w : Nat) (xs : List Nat) :
    (xs.map (leBytes w)).flatten.length = w * xs.length := by
  induction xs with
  | nil => rfl
  | cons x xs ih => simp only [List.map_cons, List.flatten_cons, List.length_append, length_leBytes, ih,
      List.length_cons, Nat.mul_succ, Nat.add_comm]

theorem length_flatten_map_leBytes {α : Type} (w : Nat) (f : α → Nat) (xs : List α) :
    (xs.map fun y => leBytes w (f y)).flatten.length = w * xs.length := by
  induction xs with
  | nil => rfl
  | cons x xs ih => simp only [List.map_cons, List.flatten_cons, List.length_append, length_leBytes, ih,
      List.length_cons, Nat.mul_succ, Nat.add_comm]

theorem VtableAt.mono (h : VtableAt bs v ents) (hs : bs <:+ bs') : VtableAt bs' v ents :=
  ⟨h.1.imp fun _ hv => hv.mono hs, h.2⟩

theorem ObjectAt.mono (h : ObjectAt bs oo ents) (hs : bs <:+ bs') : ObjectAt bs' oo ents :=
  h.imp fun _ hv => ⟨hv.1.mono hs, hv.2.mono hs⟩

/-- Writing in front keeps every vtable the builder keeps for reuse where it was. -/
theorem VtablesOK.mono {b : Builder} (hok : VtablesOK b) (hs : b.bytes <:+ bs') :
    ∀ v ∈ b.vtables, ∃ ents, VtableAt bs' v ents ∧ ∀ e ∈ ents, e < v :=
  fun v hv => let ⟨ents, hat, hlt⟩ := hok v hv; ⟨ents, hat.mono hs, hlt⟩

/-- Reading slot `s` of an object finds its vtable's entry, zero past the vtable's end. -/
theorem ObjectAt.offset (h : ObjectAt bs oo ents) (hb : bs.length < 2 ^ 31) (s : Nat) :
    (Table.mk bs (bs.length - oo)).offset (4 + 2 * s) = some (ents.getD s 0) := by
  obtain ⟨v, hso, ⟨sz, hvt⟩, hvs, hents⟩ := h
  have hoo := hso.le
  have hv := hvt.le
  simp only [length_leInt, vtableBytes, List.length_append, length_leBytes, length_flatten_leBytes] at hoo hv
  have h1 := hso.getLE
  rw [length_leInt] at h1
  have h1' : toSOffsetT (leValue (leInt 4 ((v : Int) - oo))) = (v : Int) - oo :=
    toSOffsetT_leInt (by omega) (by omega)
  have hpos : Int.toNat ((((bs.length - oo : Nat) : Int) - ((v : Int) - oo)) % 2 ^ 32) = bs.length - v := by
    rw [show ((bs.length - oo : Nat) : Int) - ((v : Int) - oo) = ((bs.length - v : Nat) : Int) by omega,
      Int.emod_eq_of_lt (by omega) (by omega), Int.toNat_ofNat]
  have h2 := hvt.left.left.getLE
  rw [length_leBytes, leValue_leBytes_of_lt (by omega)] at h2
  simp only [Table.offset, Option.bind_eq_bind, h1, Option.some_bind, h1', hpos, h2]
  split
  · have hs : s < ents.length := by omega
    have he := (hvt.right.entry hs).getLE
    rw [length_leBytes, leValue_leBytes_of_lt (hents _ (List.getElem_mem hs))] at he
    simp only [List.length_append, length_leBytes] at he
    rw [show bs.length - v + (4 + 2 * s) = bs.length - (v - (2 + 2) - 2 * s) by omega, he,
      List.getD_eq_getElem _ _ hs]
  · rw [List.getD_eq_default _ _ (by omega)]

namespace Builder

/-- The trimmed vtable followed by the zeros cut off is the vtable. -/
theorem trimVtable_append (vt : List Nat) : ∃ n, vt = trimVtable vt ++ List.replicate n 0 := by
  let z := List.takeWhile (fun a => decide (a = 0)) vt.reverse
  refine ⟨z.reverse.length, ?_⟩
  conv_lhs => rw [← List.reverse_reverse vt, ← List.takeWhile_append_dropWhile (fun a => decide (a = 0)) vt.reverse]
  rw [List.reverse_append]
  exact congrArg _ (List.eq_replicate_iff.mpr ⟨rfl, fun a ha => by
    simpa using List.mem_takeWhile_imp (List.mem_reverse.mp ha)⟩)

theorem getD_trimVtable (vt : List Nat) (s : Nat) : (trimVtable vt).getD s 0 = vt.getD s 0 := by
  obtain ⟨n, hn⟩ := trimVtable_append vt
  conv_rhs => rw [hn]
  by_cases hs : s < (trimVtable vt).length
  · rw [List.getD_append _ _ _ _ hs]
  · rw [List.getD_append_right _ _ _ _ (by omega), List.getD_eq_default _ _ (by omega)]
    by_cases hk : s - (trimVtable vt).length < n
    · rw [List.getD_eq_getElem _ _ (by simpa using hk), List.getElem_replicate]
    · rw [List.getD_eq_default _ _ (by simpa using hk)]

theorem length_trimVtable_le (vt : List Nat) : (trimVtable vt).length ≤ vt.length := by
  obtain ⟨n, hn⟩ := trimVtable_append vt
  conv_rhs => rw [hn]
  simp

theorem mem_of_mem_trimVtable {vt : List Nat} {a : Nat} (h : a ∈ trimVtable vt) : a ∈ vt := by
  obtain ⟨n, hn⟩ := trimVtable_append vt
  rw [hn]
  exact List.mem_append_left _ h

/-- A vtable `vtableEqual` accepts has the entries the one being written would have: an absent
field can match only a zero entry, since every entry lies below the object's offset. -/
theorem eq_of_vtableEqual {oo : Nat} :
    ∀ {vt ents : List Nat}, vtableEqual oo vt (ents.map (leBytes 2)).flatten = true →
      (∀ e ∈ ents, e < 2 ^ 16) → (∀ e ∈ ents, e < oo) → (∀ a ∈ vt, a ≤ oo) →
      ents = vt.map fun a => if a ≠ 0 then oo - a else 0
  | [], [], _, _, _, _ => rfl
  | [], e :: ents, h, _, _, _ => by simp [vtableEqual, leBytes] at h
  | a :: vt, [], h, _, _, _ => by simp [vtableEqual] at h
  | a :: vt, e :: ents, h, h16, hlt, hle => by
    have he : leValue [UInt8.ofNat e, UInt8.ofNat (e / 256)] = e := by
      simpa [leBytes] using leValue_leBytes_of_lt (show e < 256 ^ 2 by have := h16 e (List.mem_cons_self e ents); omega)
    simp only [List.map_cons, List.flatten_cons, leBytes, List.cons_append, List.nil_append,
      vtableEqual, he, Bool.and_eq_true, Bool.or_eq_true, beq_iff_eq] at h
    obtain ⟨hx, hrest⟩ := h
    have ha := hle a (List.mem_cons_self a vt)
    have hea := hlt e (List.mem_cons_self e ents)
    rw [List.map_cons, eq_of_vtableEqual hrest (fun x hx => h16 x (List.mem_cons_of_mem e hx))
      (fun x hx => hlt x (List.mem_cons_of_mem e hx)) (fun x hx => hle x (List.mem_cons_of_mem a hx))]
    congr 1
    split <;> omega

/-- The vtable search never panics on vtables that lie where they were written, and what it
finds has the entries of the vtable being written. -/
theorem findVtable_spec (bs : List UInt8) (vt : List Nat) (oo : Nat) (Q : Nat → List Nat → Prop)
    (hvt : ∀ a ∈ vt, a ≤ oo) :
    ∀ vs : List Nat, (∀ v ∈ vs, ∃ ents, Q v ents ∧ VtableAt bs v ents ∧ ∀ e ∈ ents, e < oo) →
      findVtable bs vt oo vs = some none ∨
        ∃ v ∈ vs, findVtable bs vt oo vs = some (some v) ∧
          Q v (vt.map fun a => if a ≠ 0 then oo - a else 0)
  | [], _ => .inl rfl
  | v :: vs, hvs => by
    obtain ⟨ents, hQ, ⟨⟨sz, hat⟩, hsz, h16⟩, hlt⟩ := hvs v (List.mem_cons_self v vs)
    have hle := hat.le
    simp only [vtableBytes, List.length_append, length_leBytes, length_flatten_leBytes] at hle
    have hlen := hat.left.left.getLE
    rw [length_leBytes, leValue_leBytes_of_lt (by omega)] at hlen
    have hsl := hat.right.slice
    simp only [List.length_append, length_leBytes, length_flatten_leBytes] at hsl
    rw [show bs.length - (v - (2 + 2)) = bs.length - v + 4 by omega,
      show bs.length - v + 4 + 2 * ents.length = bs.length - v + (ents.length + 2) * 2 by omega] at hsl
    simp only [findVtable, Option.bind_eq_bind, hlen, Option.some_bind, hsl]
    split
    · next heq =>
      exact .inr ⟨v, List.mem_cons_self v vs, rfl, eq_of_vtableEqual heq h16 hlt hvt ▸ hQ⟩
    · rcases findVtable_spec bs vt oo Q hvt vs fun w hw => hvs w (List.mem_cons_of_mem v hw) with
        h | ⟨w, hw, h, hQw⟩
      · exact .inl h
      · exact .inr ⟨w, List.mem_cons_of_mem v hw, h, hQw⟩

theorem writeAt_eq (b : Builder) {pre mid post xs : List UInt8} (hb : b.bytes = pre ++ mid ++ post)
    (hl : mid.length = xs.length) :
    b.writeAt pre.length xs = some { b with bytes := pre ++ xs ++ post } := by
  have hlen : pre.length + xs.length ≤ b.offset := by
    simp only [offset_eq, hb, List.length_append]; omega
  rw [writeAt, if_pos hlen, hb]
  simp only [List.append_assoc, List.take_left, List.drop_append, ← hl, List.drop_left]

/-- On an even offset, with 2-byte alignment already recorded, a voffset is written with no padding. -/
theorem prependVOffsetT_spec (b : Builder) (x : Nat) (hev : b.bytes.length % 2 = 0) (hm : 2 ≤ b.minalign)
    (h : b.bytes.length + 6 ≤ 2 ^ 30) :
    ∃ c, b.prependVOffsetT x = some { b with capacity := c, bytes := leBytes 2 x ++ b.bytes } := by
  obtain ⟨c, -, hc⟩ := b.prependScalar_spec x (by decide : 0 < 2) h
  rw [show alignSize 2 0 b.bytes.length = 0 by simp only [alignSize]; omega, List.replicate_zero,
    List.append_nil, Nat.max_eq_left hm] at hc
  exact ⟨c, hc⟩

theorem foldlM_prependVOffsetT (f : Nat → Nat) (ys : List Nat) (b : Builder)
    (hev : b.bytes.length % 2 = 0) (hm : 2 ≤ b.minalign) (h : b.bytes.length + 2 * ys.length + 6 ≤ 2 ^ 30) :
    ∃ c, ys.foldlM (fun b y => b.prependVOffsetT (f y)) b =
      some { b with capacity := c, bytes := (ys.reverse.map fun y => leBytes 2 (f y)).flatten ++ b.bytes } := by
  induction ys generalizing b with
  | nil => exact ⟨b.capacity, rfl⟩
  | cons y ys ih =>
    obtain ⟨c, hc⟩ := b.prependVOffsetT_spec (f y) hev hm (by simp only [List.length_cons] at h; omega)
    obtain ⟨c', hc'⟩ := ih { b with capacity := c, bytes := leBytes 2 (f y) ++ b.bytes }
      (by simp only [List.length_append, length_leBytes]; omega) hm
      (by simp only [List.length_append, length_leBytes, List.length_cons] at h ⊢; omega)
    refine ⟨c', ?_⟩
    simp only [List.foldlM_cons, hc, Option.bind_eq_bind, Option.some_bind, hc', List.reverse_cons,
      List.map_append, List.flatten_append, List.map_cons, List.map_nil, List.flatten_cons, List.flatten_nil,
      List.append_nil, List.append_assoc]

/-- The entries `WriteVtable` stores for the fields `vt` of the object at offset `oo`. -/
def vtableEntries (vt : List Nat) (oo : Nat) : List Nat :=
  (trimVtable vt).map fun a => if a ≠ 0 then oo - a else 0

theorem writeVtable_spec (b : Builder) (hok : VtablesOK b)
    (hvt : ∀ a ∈ b.vtable, a ≠ 0 → b.objectEnd < a ∧ a ≤ b.bytes.length)
    (hsize : b.bytes.length - b.objectEnd + 8 < 2 ^ 16) (hlen : 2 * b.vtable.length + 8 < 2 ^ 16)
    (h : b.bytes.length + 2 * b.vtable.length + 24 ≤ 2 ^ 30) :
    ∃ b' oo, b.writeVtable = some (b', oo) ∧ b.bytes.length < oo ∧ b.bytes <:+ b'.bytes ∧
      b'.bytes.length ≤ b.bytes.length + 2 * b.vtable.length + 12 ∧
      b'.vtable = [] ∧ b'.nested = b.nested ∧ b'.finished = b.finished ∧
      b'.minalign = max b.minalign 4 ∧ VtablesOK b' ∧ ObjectAt b'.bytes oo (vtableEntries b.vtable oo) := by
  obtain ⟨c₁, -, h₁⟩ := b.prependSOffsetT_zero_spec (by omega)
  have hk := alignSize_lt 4 0 b.bytes.length (by decide)
  have hk4 : (alignSize 4 0 b.bytes.length + b.bytes.length) % 4 = 0 := by simp only [alignSize]; omega
  generalize alignSize 4 0 b.bytes.length = k at hk hk4 h₁
  simp only [writeVtable, Option.bind_eq_bind, h₁, Option.some_bind, offset_eq, List.length_append,
    length_leInt, List.length_replicate]
  generalize hoo : 4 + k + b.bytes.length = oo
  have hvs : ∀ v ∈ b.vtables.reverse, ∃ ents, (VtableAt b.bytes v ents ∧ ∀ e ∈ ents, e < v) ∧
      VtableAt (leInt 4 (↑(k + b.bytes.length) + 4) ++ List.replicate k 0 ++ b.bytes) v ents ∧
      ∀ e ∈ ents, e < oo := by
    intro v hv
    obtain ⟨ents, hat, hlt⟩ := hok v (List.mem_reverse.mp hv)
    have hvle : v ≤ b.bytes.length := by obtain ⟨⟨_, h⟩, -⟩ := hat; exact h.le.2
    exact ⟨ents, ⟨hat, hlt⟩, hat.mono (List.suffix_append _ _), fun e he => by have := hlt e he; omega⟩
  have htrim : ∀ a ∈ trimVtable b.vtable, a ≤ oo := by
    intro a ha
    by_cases ha0 : a = 0
    · omega
    · have := hvt a (mem_of_mem_trimVtable ha) ha0; omega
  rcases findVtable_spec _ (trimVtable b.vtable) oo
      (fun v ents => VtableAt b.bytes v ents ∧ ∀ e ∈ ents, e < v) htrim _ hvs with
    hf | ⟨v, hv, hf, hQ⟩
  · have hn := length_trimVtable_le b.vtable
    generalize hb₁ : ({ b with
        minalign := max b.minalign 4, capacity := c₁,
        bytes := leInt 4 (↑(k + b.bytes.length) + 4) ++ List.replicate k 0 ++ b.bytes } : Builder) = b₁
    have hl₁ : b₁.bytes.length = oo := by
      rw [← hb₁, ← hoo]; simp only [List.length_append, length_leInt, List.length_replicate]
    obtain ⟨c₂, h₂⟩ := foldlM_prependVOffsetT (fun off => if off ≠ 0 then oo - off else 0)
      (trimVtable b.vtable).reverse b₁ (by omega) (by rw [← hb₁]; exact le_trans (by decide) (Nat.le_max_right _ _))
      (by rw [List.length_reverse]; omega)
    rw [List.reverse_reverse] at h₂
    generalize hE : ((trimVtable b.vtable).map fun y => leBytes 2 (if y ≠ 0 then oo - y else 0)).flatten = E
      at h₂
    have hEl : E.length = 2 * (trimVtable b.vtable).length := by
      rw [← hE, length_flatten_map_leBytes]
    have hbytes₁ : b₁.bytes = leInt 4 (↑(k + b.bytes.length) + 4) ++ (List.replicate k 0 ++ b.bytes) := by
      rw [← hb₁, List.append_assoc]
    have hm₁ : 4 ≤ b₁.minalign := by rw [← hb₁]; exact Nat.le_max_right _ _
    have hm₂ : 2 ≤ b₁.minalign := le_trans (by decide) hm₁
    obtain ⟨c₃, h₃⟩ := Builder.prependVOffsetT_spec { b₁ with capacity := c₂, bytes := E ++ b₁.bytes }
      (oo - b₁.objectEnd) (by simp only [List.length_append, hEl, hl₁]; omega) hm₂
      (by simp only [List.length_append, hEl, hl₁]; omega)
    obtain ⟨c₄, h₄⟩ := Builder.prependVOffsetT_spec { b₁ with
        capacity := c₃, bytes := leBytes 2 (oo - b₁.objectEnd) ++ (E ++ b₁.bytes) }
      (((trimVtable b.vtable).length + 2) * 2) (by simp only [List.length_append, length_leBytes, hEl, hl₁]; omega)
      hm₂ (by simp only [List.length_append, length_leBytes, hEl, hl₁]; omega)
    have hw := writeAt_eq { b₁ with
        capacity := c₄,
        bytes := leBytes 2 (((trimVtable b.vtable).length + 2) * 2) ++
          (leBytes 2 (oo - b₁.objectEnd) ++ (E ++ b₁.bytes)) }
      (show _ = (leBytes 2 (((trimVtable b.vtable).length + 2) * 2) ++ leBytes 2 (oo - b₁.objectEnd) ++ E) ++
          leInt 4 (↑(k + b.bytes.length) + 4) ++ (List.replicate k 0 ++ b.bytes) by
        simp only [hbytes₁, List.append_assoc])
      (show _ = (leInt 4 (((4 + 2 * (trimVtable b.vtable).length + oo : Nat) : Int) - oo)).length by
        simp only [length_leInt])
    simp only [hf, Option.some_bind, h₂, h₃, h₄]
    have hlen₄ : (leBytes 2 (((trimVtable b.vtable).length + 2) * 2) ++
        (leBytes 2 (oo - b₁.objectEnd) ++ (E ++ b₁.bytes))).length = 4 + 2 * (trimVtable b.vtable).length + oo := by
      simp only [List.length_append, length_leBytes, hEl, hl₁]; omega
    rw [hlen₄, show 4 + 2 * (trimVtable b.vtable).length + oo - oo =
      (leBytes 2 (((trimVtable b.vtable).length + 2) * 2) ++ leBytes 2 (oo - b₁.objectEnd) ++ E).length by
        simp only [List.length_append, length_leBytes, hEl]; omega, hw, Option.some_bind, Option.pure_def]
    have hE' : E = ((vtableEntries b.vtable oo).map (leBytes 2)).flatten := by
      rw [← hE, vtableEntries, List.map_map]; rfl
    have hents : ∀ e ∈ vtableEntries b.vtable oo, e < oo - b.objectEnd + 1 ∧ e < oo := by
      intro e he
      obtain ⟨a, ha, rfl⟩ := List.mem_map.mp he
      split
      · have := hvt a (mem_of_mem_trimVtable ha) ‹_›; omega
      · omega
    have hn' : (vtableEntries b.vtable oo).length = (trimVtable b.vtable).length := List.length_map _ _
    have hnew : VtableAt (leBytes 2 (((trimVtable b.vtable).length + 2) * 2) ++ leBytes 2 (oo - b₁.objectEnd) ++ E ++
        leInt 4 (↑(4 + 2 * (trimVtable b.vtable).length + oo) - ↑oo) ++ (List.replicate k 0 ++ b.bytes))
        (4 + 2 * (trimVtable b.vtable).length + oo) (vtableEntries b.vtable oo) := by
      refine ⟨⟨oo - b₁.objectEnd, [], leInt 4 (↑(4 + 2 * (trimVtable b.vtable).length + oo) - ↑oo) ++
        (List.replicate k 0 ++ b.bytes), ?_, ?_⟩, by omega, fun e he => by have := hents e he; omega⟩
      · simp only [vtableBytes, hn', ← hE', List.nil_append, List.append_assoc]
      · simp only [vtableBytes, hn', List.length_append, length_leBytes, length_flatten_leBytes, length_leInt,
          List.length_replicate]
        omega
    refine ⟨_, _, rfl, by omega, ?_, ?_, rfl, by rw [← hb₁], by rw [← hb₁], by rw [← hb₁], ?_, ?_⟩
    · exact (List.suffix_append _ _).trans (List.suffix_append _ _)
    · simp only [List.length_append, length_leBytes, length_leInt, List.length_replicate, hEl]; omega
    · intro w hw
      rw [← hb₁, List.mem_append, List.mem_singleton] at hw
      rcases hw with hw | rfl
      · exact hok.mono ((List.suffix_append _ _).trans (List.suffix_append _ _)) w hw
      · refine ⟨vtableEntries b.vtable oo, ?_, fun e he => ?_⟩
        · refine Eq.mp (congrArg (fun p => VtableAt _ p (vtableEntries b.vtable oo)) ?_) hnew
          simp only [List.length_append, length_leBytes, length_leInt, List.length_replicate, hEl]; omega
        · have := hents e he
          simp only [List.length_append, length_leBytes, length_leInt, List.length_replicate, hEl]; omega
    · refine ⟨4 + 2 * (trimVtable b.vtable).length + oo, ⟨_, List.replicate k 0 ++ b.bytes, rfl, ?_⟩, hnew⟩
      simp only [length_leInt, List.length_append, List.length_replicate]
      omega

  · have hw := writeAt_eq { b with
        minalign := max b.minalign 4, capacity := c₁,
        bytes := leInt 4 (↑(k + b.bytes.length) + 4) ++ List.replicate k 0 ++ b.bytes }
      (show _ = [] ++ leInt 4 (↑(k + b.bytes.length) + 4) ++ (List.replicate k 0 ++ b.bytes) by
        simp only [List.nil_append, List.append_assoc])
      (show _ = (leInt 4 ((v : Int) - oo)).length by simp only [length_leInt])
    simp only [List.length_nil, List.nil_append] at hw
    simp only [hf, Option.some_bind, hw, Option.pure_def, Option.some.injEq, Prod.mk.injEq]
    refine ⟨_, _, ⟨rfl, rfl⟩, by omega, (List.suffix_append _ _).trans (List.suffix_append _ _), ?_,
      rfl, rfl, rfl, rfl, fun w hw => ?_, v, ?_, hQ.1.mono ((List.suffix_append _ _).trans (List.suffix_append _ _))⟩
    · simp only [List.length_append, length_leInt, List.length_replicate]; omega
    · exact hok.mono ((List.suffix_append _ _).trans (List.suffix_append _ _)) w hw
    · refine ⟨[], List.replicate k 0 ++ b.bytes, rfl, ?_⟩
      simp only [length_leInt, List.length_append, List.length_replicate]
      omega

end Builder

end Eventing.Flatbuffers
