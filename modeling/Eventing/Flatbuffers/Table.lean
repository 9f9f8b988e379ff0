import Eventing.Flatbuffers.Builder

/-! # Reading a flatbuffer

A table is read through its vtable: the table's first word is the signed
distance back to the vtable, whose entry for a field is the field's position in
the table, zero when the field is absent. The generated accessors read a scalar
field in place, follow the offset of a string or a vector, and give the field's
default when it is absent.

## Implementation notes

`Table` is the runtime's `flatbuffers.Table`; the accessors the schema
compiler generates (`Event()`, `Key()`, `ThrMap(obj, j)`, …) are one
definition per kind of field, given the field's vtable slot.
-/

namespace Eventing.Flatbuffers

/-- A `flatbuffers.Table`: the buffer and the table's position in it. -/
structure Table where
  bytes : List UInt8
  pos : Nat
  deriving DecidableEq, Repr

namespace Table

variable (t : Table)

/-- `Offset(vtableOffset)`: the vtable entry at `vtableOffset`, zero past the vtable's end. -/
def offset (vtableOffset : Nat) : Option Nat := do
  let vtable := (((t.pos : Int) - toSOffsetT (← getLE t.bytes t.pos 4)) % 2 ^ 32).toNat
  if vtableOffset < (← getLE t.bytes vtable 2) then getLE t.bytes (vtable + vtableOffset) 2
  else some 0

/-- `Indirect(off)`: the position the offset stored at `off` points to. -/
def indirect (off : Nat) : Option Nat := do return off + (← getLE t.bytes off 4)

/-- `ByteVector(off)`: the bytes of the string or byte vector the offset at `off` points to. -/
def byteVector (off : Nat) : Option (List UInt8) := do
  let off ← t.indirect off
  let start := off + 4
  slice t.bytes start (start + (← getLE t.bytes off 4))

/-- `Vector(off)`: where the elements of the vector of the field at `off` start. -/
def vector (off : Nat) : Option Nat := do return (← t.indirect (off + t.pos)) + 4

/-- `VectorLen(off)`: the length of the vector of the field at `off`. -/
def vectorLen (off : Nat) : Option Nat := do getLE t.bytes (← t.indirect (off + t.pos)) 4

/-- A scalar field of `w` bytes in vtable slot `slot`, `d` when absent: `Event()`,
`Partition()`, `CurlTimeout()` and the like. -/
def scalarField (w slot d : Nat) : Option Nat := do
  let o ← t.offset (4 + 2 * slot)
  if o ≠ 0 then getLE t.bytes (o + t.pos) w else some d

/-- A string or byte-vector field, `nil` when absent: `Metadata()`, `Key()` and the like. -/
def bytesField (slot : Nat) : Option (List UInt8) := do
  let o ← t.offset (4 + 2 * slot)
  if o ≠ 0 then t.byteVector (o + t.pos) else some []

/-- The length of a vector field, `0` when absent: `ThrMapLength()`, `PartitionsLength()`. -/
def vectorFieldLen (slot : Nat) : Option Nat := do
  let o ← t.offset (4 + 2 * slot)
  if o ≠ 0 then t.vectorLen o else some 0

/-- Element `j` of a vector of `w`-byte scalars, `0` when the field is absent:
`Partitions(j)`. -/
def scalarVectorAt (w slot j : Nat) : Option Nat := do
  let o ← t.offset (4 + 2 * slot)
  if o ≠ 0 then getLE t.bytes ((← t.vector o) + j * w) w else some 0

/-- Element `j` of a vector of tables, `none` inside `some` when the field is absent:
`ThrMap(obj, j)`, which returns `false` then. -/
def tableVectorAt (slot j : Nat) : Option (Option Table) := do
  let o ← t.offset (4 + 2 * slot)
  if o ≠ 0 then return some ⟨t.bytes, ← t.indirect ((← t.vector o) + j * 4)⟩ else some none

end Table

/-- `GetRootAs…(buf, 0)`: the root table. -/
def getRoot (buf : List UInt8) : Option Table := do return ⟨buf, ← getLE buf 0 4⟩

end Eventing.Flatbuffers
