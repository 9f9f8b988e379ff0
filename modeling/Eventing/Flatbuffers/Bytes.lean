import Mathlib.Algebra.Group.Int
import Mathlib.Data.List.Infix

/-! # Little-endian bytes

The frames for the worker are flatbuffers: byte slices whose scalars are
little-endian and whose objects are found through offsets. This module is their
byte layer: the encoding of a scalar, the bounds-checked reads of a Go slice,
and `HoldsAt`, which places a run of bytes by its distance from the end of the
slice. A builder writes from the back, so that distance, the object's offset,
never changes once the object is written.

## Implementation notes

A read outside a Go slice panics: `none`. A scalar is the natural number of its
bit pattern; the signed types read back through `toSOffsetT` and `BitVec`.
-/

namespace Eventing.Flatbuffers

/-- The `w` little-endian bytes of `v`, as `WriteUint8` … `WriteUint64` store it: the bits
above `8 * w` are dropped. -/
def leBytes : Nat → Nat → List UInt8
  | 0, _ => []
  | w + 1, v => UInt8.ofNat v :: leBytes w (v / 256)

/-- The number whose little-endian bytes are `bs`, as `GetUint8` … `GetUint64` read it. -/
def leValue : List UInt8 → Nat
  | [] => 0
  | x :: xs => x.toNat + 256 * leValue xs

/-- `WriteInt32` and the other signed writes: the two's complement bytes of `x`. -/
def leInt (w : Nat) (x : Int) : List UInt8 := leBytes w (x % 2 ^ (8 * w)).toNat

/-- The byte `WriteBool` stores. -/
def writeBool (b : Bool) : Nat := if b then 1 else 0

/-- A flag reads back as set exactly when its byte is not zero. -/
@[simp] theorem writeBool_bne_zero (b : Bool) : (writeBool b != 0) = b := by cases b <;> rfl

theorem writeBool_lt (b : Bool) : writeBool b < 256 ^ 1 := by cases b <;> decide

/-- `GetSOffsetT`: a 32-bit pattern read as a signed number. -/
def toSOffsetT (x : Nat) : Int := if x < 2 ^ 31 then x else x - 2 ^ 32

/-- `GetUint16(buf[p:])` and the like: the `w` bytes at index `p`, little-endian. -/
def getLE (bs : List UInt8) (p w : Nat) : Option Nat :=
  if p + w ≤ bs.length then some (leValue ((bs.drop p).take w)) else none

/-- `buf[lo:hi]`. -/
def slice (bs : List UInt8) (lo hi : Nat) : Option (List UInt8) :=
  if lo ≤ hi ∧ hi ≤ bs.length then some ((bs.drop lo).take (hi - lo)) else none

@[simp] theorem length_leBytes (w v : Nat) : (leBytes w v).length = w := by
  induction w generalizing v with
  | zero => rfl
  | succ w ih => simp only [leBytes, List.length_cons, ih]

@[simp] theorem length_leInt (w : Nat) (x : Int) : (leInt w x).length = w := length_leBytes _ _

theorem leValue_leBytes (w v : Nat) : leValue (leBytes w v) = v % 256 ^ w := by
  induction w generalizing v with
  | zero => simp [leBytes, leValue, Nat.mod_one]
  | succ w ih =>
      rw [leBytes, leValue, ih, Nat.pow_succ', Nat.mod_mul]
      rfl

theorem leValue_leBytes_of_lt {w v : Nat} (h : v < 256 ^ w) : leValue (leBytes w v) = v := by
  rw [leValue_leBytes, Nat.mod_eq_of_lt h]

theorem leValue_lt (xs : List UInt8) : leValue xs < 256 ^ xs.length := by
  induction xs with
  | nil => simp [leValue]
  | cons x xs ih =>
      have hx : x.toNat < 256 := x.toNat_lt_size
      rw [leValue, List.length_cons, Nat.pow_succ]
      omega

/-- The signed read of a two's complement write gives the number back. -/
theorem toSOffsetT_leInt {x : Int} (h₁ : -2 ^ 31 ≤ x) (h₂ : x < 2 ^ 31) :
    toSOffsetT (leValue (leInt 4 x)) = x := by
  unfold leInt toSOffsetT
  rw [leValue_leBytes_of_lt (by omega)]
  split <;> omega

/-! ## Runs of bytes placed from the end -/

/-- `xs` lies in `bs` at offset `o`: it starts `o` bytes before the end of `bs`. -/
def HoldsAt (bs : List UInt8) (o : Nat) (xs : List UInt8) : Prop :=
  ∃ pre post, bs = pre ++ xs ++ post ∧ xs.length + post.length = o

variable {bs bs' xs ys : List UInt8} {o : Nat}

/-- What was just written in front lies at the full length. -/
theorem holdsAt_front (xs bs : List UInt8) : HoldsAt (xs ++ bs) (xs ++ bs).length xs :=
  ⟨[], bs, by simp, by simp⟩

/-- Writing in front keeps every run at its offset. -/
theorem HoldsAt.mono (h : HoldsAt bs o xs) (hs : bs <:+ bs') : HoldsAt bs' o xs := by
  obtain ⟨pre, post, rfl, hl⟩ := h
  obtain ⟨t, rfl⟩ := hs
  exact ⟨t ++ pre, post, by simp, hl⟩

theorem HoldsAt.le (h : HoldsAt bs o xs) : xs.length ≤ o ∧ o ≤ bs.length := by
  obtain ⟨pre, post, rfl, hl⟩ := h
  simp only [List.length_append]
  omega

theorem HoldsAt.left (h : HoldsAt bs o (xs ++ ys)) : HoldsAt bs o xs := by
  obtain ⟨pre, post, rfl, hl⟩ := h
  exact ⟨pre, ys ++ post, by simp, by simp only [List.length_append] at hl ⊢; omega⟩

theorem HoldsAt.right (h : HoldsAt bs o (xs ++ ys)) : HoldsAt bs (o - xs.length) ys := by
  obtain ⟨pre, post, rfl, hl⟩ := h
  exact ⟨pre ++ xs, post, by simp, by simp only [List.length_append] at hl ⊢; omega⟩

/-- The bytes from index `bs.length - o` on start with the run. -/
theorem HoldsAt.drop_eq (h : HoldsAt bs o xs) :
    ∃ post, bs.drop (bs.length - o) = xs ++ post := by
  obtain ⟨pre, post, rfl, hl⟩ := h
  refine ⟨post, ?_⟩
  have : (pre ++ xs ++ post).length - o = pre.length := by simp only [List.length_append]; omega
  rw [this, List.append_assoc, List.drop_left]

theorem HoldsAt.getLE (h : HoldsAt bs o xs) :
    getLE bs (bs.length - o) xs.length = some (leValue xs) := by
  obtain ⟨post, hp⟩ := h.drop_eq
  have := h.le
  unfold Flatbuffers.getLE
  rw [if_pos (by omega), hp, List.take_left]

theorem HoldsAt.slice (h : HoldsAt bs o xs) :
    slice bs (bs.length - o) (bs.length - o + xs.length) = some xs := by
  obtain ⟨post, hp⟩ := h.drop_eq
  have := h.le
  unfold Flatbuffers.slice
  rw [if_pos (by omega), hp, Nat.add_sub_cancel_left, List.take_left]

end Eventing.Flatbuffers
