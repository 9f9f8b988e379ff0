import Eventing.Flatbuffers.Object
import Mathlib.Algebra.Order.Ring.Nat

/-! # Writing and reading the fields of a table

The generated `Add…` functions each write one field: a scalar, skipped when it
equals its default, or the offset of a string, a vector or a table written
before. Between `StartObject` and `EndObject` the vtable under construction
keeps the offset of each field written. This module follows a whole table
through those calls and shows that reading it back through its vtable gives
every field as written.

## Implementation notes

`FieldWrite` is one generated `Add…` call. `FieldsAt` is the invariant of the
calls between `StartObject` and `EndObject`; `TableAt` is what a finished table
guarantees to a reader.
-/

namespace Eventing.Flatbuffers

/-- A field as a generated `Add…` function writes it: a scalar of `w` bytes with its default
`d`, or the offset of an object written before, whose default is `0`. -/
inductive FieldWrite
  | scalar (slot w x d : Nat)
  | offset (slot x : Nat)
  deriving DecidableEq, Repr

namespace FieldWrite

/-- The field's vtable slot. -/
def slot : FieldWrite → Nat
  | scalar o _ _ _ => o
  | offset o _ => o

/-- Whether the call writes anything: a value other than the default. -/
def present : FieldWrite → Bool
  | scalar _ _ x d => x != d
  | offset _ x => x != 0

/-- The call: `PrependInt16Slot(o, x, d)` and the like, or `PrependUOffsetTSlot(o, x, 0)`. -/
def add : FieldWrite → Builder → Option Builder
  | scalar o w x d, b => b.prependScalarSlot w o x d
  | offset o x, b => b.prependUOffsetTSlot o x 0

/-- The bytes of the field when it lies at offset `a`. -/
def bytesAt : FieldWrite → Nat → List UInt8
  | scalar _ w x _, _ => leBytes w x
  | offset _ x, a => leBytes 4 (a - x)

/-- The most bytes the call writes, padding included. -/
def room : FieldWrite → Nat
  | scalar _ w _ _ => 3 * w
  | offset _ _ => 8

end FieldWrite

/-- What the field needs of where it is written: a scalar of one to eight bytes, or the offset of
an object written before, below `a`. -/
def FieldWrite.Fits : FieldWrite → Nat → Prop
  | .scalar _ w _ _, _ => 0 < w ∧ w ≤ 8
  | .offset _ x, a => x ≤ a

/-- The field `f` lies at offset `a` of `bs`. -/
def FieldWrite.LiesAt (f : FieldWrite) (bs : List UInt8) (a : Nat) : Prop :=
  f.Fits a ∧ HoldsAt bs a (f.bytesAt a)

/-- What the calls between `StartObject` and `EndObject` have written so far: for each slot, the
vtable under construction holds the offset, above the object's end `e`, of the field written in
it, and zero when none was. -/
def FieldsAt (b : Builder) (e : Nat) (fs : List FieldWrite) : Prop :=
  ∀ s, match fs.find? (fun f => f.slot == s && f.present) with
    | none => b.vtable.getD s 0 = 0
    | some f => e < b.vtable.getD s 0 ∧ f.LiesAt b.bytes (b.vtable.getD s 0)

theorem FieldWrite.Fits.mono {f : FieldWrite} {n m : Nat} (h : f.Fits n) (hle : n ≤ m) : f.Fits m := by
  cases f with
  | scalar => exact h
  | offset => exact Nat.le_trans h hle

theorem FieldWrite.LiesAt.mono {f : FieldWrite} {bs bs' : List UInt8} {a : Nat} (h : f.LiesAt bs a)
    (hs : bs <:+ bs') : f.LiesAt bs' a :=
  ⟨h.1, h.2.mono hs⟩

/-- `b'` is `b` with bytes written in front and its object bookkeeping kept. -/
structure Grows (b b' : Builder) : Prop where
  suffix : b.bytes <:+ b'.bytes
  objectEnd : b'.objectEnd = b.objectEnd
  vtables : b'.vtables = b.vtables
  nested : b'.nested = b.nested
  finished : b'.finished = b.finished
  length_vtable : b'.vtable.length = b.vtable.length
  minalign : 0 < b.minalign → b.minalign ≤ 8 → 0 < b'.minalign ∧ b'.minalign ≤ 8

theorem Grows.refl (b : Builder) : Grows b b :=
  ⟨List.suffix_refl _, rfl, rfl, rfl, rfl, rfl, fun h h' => ⟨h, h'⟩⟩

theorem Grows.trans {b b' b'' : Builder} (h : Grows b b') (h' : Grows b' b'') : Grows b b'' :=
  ⟨h.suffix.trans h'.suffix, h'.objectEnd.trans h.objectEnd, h'.vtables.trans h.vtables,
    h'.nested.trans h.nested, h'.finished.trans h.finished, h'.length_vtable.trans h.length_vtable,
    fun h₁ h₂ => h'.minalign (h.minalign h₁ h₂).1 (h.minalign h₁ h₂).2⟩

/-- Writing bytes in front with alignment at most 8 and setting one slot of the vtable grows the
builder. -/
theorem Grows.of_write (b : Builder) {w : Nat} (hw8 : w ≤ 8) (pre : List UInt8) (c o p : Nat) :
    Grows b { b with
      minalign := max b.minalign w, capacity := c, bytes := pre ++ b.bytes, vtable := b.vtable.set o p } :=
  ⟨⟨_, rfl⟩, rfl, rfl, rfl, rfl, List.length_set .., fun h₁ h₂ =>
    ⟨Nat.lt_of_lt_of_le h₁ (Nat.le_max_left _ _), Nat.max_le.mpr ⟨h₂, hw8⟩⟩⟩

theorem VtablesOK.grows {b b' : Builder} (hok : VtablesOK b) (h : Grows b b') : VtablesOK b' := by
  intro v hv
  rw [h.vtables] at hv
  obtain ⟨ents, hat, hlt⟩ := hok v hv
  exact ⟨ents, hat.mono h.suffix, hlt⟩

variable {fs : List FieldWrite} {g : FieldWrite} {s : Nat}

theorem find?_snoc_of_ne (hs : g.slot ≠ s) :
    (fs ++ [g]).find? (fun f => f.slot == s && f.present) =
      fs.find? (fun f => f.slot == s && f.present) := by
  rw [List.find?_append]
  cases fs.find? (fun f => f.slot == s && f.present) <;> simp [hs]

theorem find?_snoc_of_absent (hg : g.present = false) :
    (fs ++ [g]).find? (fun f => f.slot == s && f.present) =
      fs.find? (fun f => f.slot == s && f.present) := by
  rw [List.find?_append]
  cases fs.find? (fun f => f.slot == s && f.present) <;> simp [hg]

theorem find?_snoc_self (hnew : ∀ f ∈ fs, f.slot ≠ g.slot) (hg : g.present = true) :
    (fs ++ [g]).find? (fun f => f.slot == g.slot && f.present) = some g := by
  rw [List.find?_append, List.find?_eq_none.mpr (fun f hf => by simp [hnew f hf])]
  simp [hg]


/-- The generated `Add…` calls of one table, one after another. -/
def addFields (fs : List FieldWrite) (b : Builder) : Option Builder := fs.foldlM (fun b f => f.add b) b

/-! ## Writing the fields -/

open Builder

variable {b : Builder} {e : Nat}

theorem getD_set_self {l : List Nat} {i : Nat} (h : i < l.length) (v : Nat) : (l.set i v).getD i 0 = v := by
  simp [List.getElem?_set_self h]

theorem getD_set_ne {l : List Nat} {i j : Nat} (h : i ≠ j) (v : Nat) : (l.set i v).getD j 0 = l.getD j 0 := by
  simp [List.getElem?_set_ne h]

/-- Writing a field in front of a table under construction: the vtable gets the field's offset
in its slot, every other slot keeps its entry, and what was written stays in place. -/
theorem FieldsAt.write (hF : FieldsAt b e fs) (he : e ≤ b.bytes.length) {o : Nat}
    (ho : o < b.vtable.length) (hnew : ∀ f ∈ fs, f.slot ≠ o) (hg : g.slot = o) (hp : g.present = true)
    {pre : List UInt8} (b' : Builder) (hb' : b'.bytes = pre ++ b.bytes) (hpre : 0 < pre.length)
    (hat : g.LiesAt b'.bytes b'.bytes.length) :
    FieldsAt { b' with vtable := b.vtable.set o b'.bytes.length } e (fs ++ [g]) := by
  have hlen : b'.bytes.length = pre.length + b.bytes.length := by rw [hb', List.length_append]
  have hsuf : b.bytes <:+ b'.bytes := hb' ▸ List.suffix_append pre b.bytes
  intro s
  by_cases hs : s = o
  · subst hs
    rw [← hg, find?_snoc_self (hg ▸ hnew) hp]
    simp only
    rw [hg, getD_set_self ho]
    exact ⟨by omega, hat⟩
  · rw [find?_snoc_of_ne (hg ▸ Ne.symm hs)]
    have := hF s
    cases hfind : fs.find? (fun f => f.slot == s && f.present) with
    | none => simp only [hfind, getD_set_ne (Ne.symm hs)] at this ⊢; exact this
    | some f =>
      simp only [hfind, getD_set_ne (Ne.symm hs)] at this ⊢
      exact ⟨this.1, this.2.mono hsuf⟩

/-- A field left at its default is not written: the fields already there stay as they are. -/
theorem FieldsAt.skip (hF : FieldsAt b e fs) (hg : g.present = false) : FieldsAt b e (fs ++ [g]) := fun s => by
  rw [find?_snoc_of_absent hg]
  exact hF s

/-- One `Add…` call keeps `FieldsAt`, with the new field in its slot. -/
theorem FieldsAt.add (hF : FieldsAt b e fs) (he : e ≤ b.bytes.length) (hslot : g.slot < b.vtable.length)
    (hnew : ∀ f ∈ fs, f.slot ≠ g.slot) (hfit : g.Fits b.bytes.length)
    (h : b.bytes.length + g.room ≤ 2 ^ 30) :
    ∃ b', g.add b = some b' ∧ FieldsAt b' e (fs ++ [g]) ∧ Grows b b' ∧
      b'.bytes.length ≤ b.bytes.length + g.room := by
  cases g with
  | scalar o w x d =>
    obtain ⟨hw0, hw8⟩ := hfit
    simp only [FieldWrite.room] at h
    have hslot' : o < b.vtable.length := hslot
    by_cases hxd : x = d
    · exact ⟨b, by simp [FieldWrite.add, prependScalarSlot, hxd],
        hF.skip (by simp [FieldWrite.present, hxd]), Grows.refl b, by omega⟩
    · obtain ⟨c, -, h₁⟩ := b.prependScalar_spec x hw0 (by omega)
      have hk := alignSize_lt w 0 b.bytes.length hw0
      refine ⟨_, by simp only [FieldWrite.add, prependScalarSlot, if_pos hxd, h₁, Option.some_bind, slot,
          hslot', if_true, offset_eq, FieldWrite.slot],
        hF.write he hslot hnew (show (FieldWrite.scalar o w x d).slot = o from rfl)
          (by simp [FieldWrite.present, hxd]) { b with
            minalign := max b.minalign w, capacity := c,
            bytes := leBytes w x ++ List.replicate (alignSize w 0 b.bytes.length) 0 ++ b.bytes }
          rfl (by simp; omega) ⟨⟨hw0, hw8⟩, ?_⟩,
        Grows.of_write b hw8 (leBytes w x ++ List.replicate _ 0) _ _ _, ?_⟩
      · rw [List.append_assoc]; exact holdsAt_front _ _
      · simp only [List.length_append, length_leBytes, List.length_replicate, FieldWrite.room]; omega
  | offset o x =>
    simp only [FieldWrite.room, FieldWrite.Fits] at h hfit
    have hslot' : o < b.vtable.length := hslot
    by_cases hx : x = 0
    · exact ⟨b, by simp [FieldWrite.add, prependUOffsetTSlot, hx],
        hF.skip (by simp [FieldWrite.present, hx]), Grows.refl b, by omega⟩
    · obtain ⟨c, -, h₁⟩ := b.prependUOffsetT_spec hfit (by omega)
      have hk := alignSize_lt 4 0 b.bytes.length (by decide)
      refine ⟨_, by simp only [FieldWrite.add, prependUOffsetTSlot, if_pos hx, h₁, Option.some_bind, slot,
          hslot', if_true, offset_eq, FieldWrite.slot],
        hF.write he hslot hnew (show (FieldWrite.offset o x).slot = o from rfl)
          (by simp [FieldWrite.present, hx]) { b with
            minalign := max b.minalign 4, capacity := c,
            bytes := leBytes 4 (alignSize 4 0 b.bytes.length + b.bytes.length - x + 4) ++
              List.replicate (alignSize 4 0 b.bytes.length) 0 ++ b.bytes }
          rfl (by simp only [List.length_append, length_leBytes]; omega) ⟨?_, ?_⟩,
        Grows.of_write b (by decide) (leBytes 4 _ ++ List.replicate _ 0) _ _ _, ?_⟩
      · simp only [FieldWrite.Fits, List.length_append, length_leBytes, List.length_replicate]; omega
      · rw [List.append_assoc]
        simp only [FieldWrite.bytesAt, List.length_append, length_leBytes, List.length_replicate]
        rw [show 4 + (alignSize 4 0 b.bytes.length + b.bytes.length) - x =
          alignSize 4 0 b.bytes.length + b.bytes.length - x + 4 by omega]
        exact ⟨[], _, (List.nil_append _).symm, by simp⟩
      · simp only [List.length_append, length_leBytes, List.length_replicate, FieldWrite.room]; omega

/-- The field adds of a table, one after another, keep `FieldsAt`. -/
theorem FieldsAt.addFields {gs : List FieldWrite} (hF : FieldsAt b e fs) (he : e ≤ b.bytes.length)
    (hslot : ∀ g ∈ gs, g.slot < b.vtable.length) (hnd : ((fs ++ gs).map FieldWrite.slot).Nodup)
    (hfit : ∀ g ∈ gs, g.Fits b.bytes.length) (h : b.bytes.length + (gs.map FieldWrite.room).sum ≤ 2 ^ 30) :
    ∃ b', addFields gs b = some b' ∧ FieldsAt b' e (fs ++ gs) ∧ Grows b b' ∧
      b'.bytes.length ≤ b.bytes.length + (gs.map FieldWrite.room).sum := by
  induction gs generalizing fs b with
  | nil => exact ⟨b, rfl, by simpa using hF, Grows.refl b, by simp⟩
  | cons g gs ih =>
    simp only [List.map_cons, List.sum_cons, List.mem_cons, forall_eq_or_imp] at hslot hfit h
    rw [List.map_append] at hnd
    have hnew : ∀ f ∈ fs, f.slot ≠ g.slot := fun f hf =>
      (List.pairwise_append.mp hnd).2.2 _ (List.mem_map_of_mem _ hf) _ (List.mem_cons_self _ _)
    obtain ⟨b₁, h₁, hF₁, hg₁, hl₁⟩ := hF.add he hslot.1 hnew hfit.1 (by omega)
    have hle := hg₁.suffix.length_le
    obtain ⟨b₂, h₂, hF₂, hg₂, hl₂⟩ := ih hF₁ (by omega) (fun g' hg' => hg₁.length_vtable ▸ hslot.2 g' hg')
      (by simpa using hnd) (fun g' hg' => (hfit.2 g' hg').mono hle) (by omega)
    refine ⟨b₂, ?_, by simpa using hF₂, hg₁.trans hg₂, by simp only [List.map_cons, List.sum_cons]; omega⟩
    simp only [Flatbuffers.addFields, List.foldlM_cons, h₁, Option.bind_eq_bind, Option.some_bind]
    exact h₂

/-! ## Whole tables -/

/-- A table a reader finds at offset `oo` of `bs`: an object whose vtable gives, for each slot, the
distance from the object to the field written in it, zero when the slot holds none. -/
def TableAt (bs : List UInt8) (oo : Nat) (fs : List FieldWrite) : Prop :=
  ∃ ents, ObjectAt bs oo ents ∧ ∀ s, match fs.find? (fun f => f.slot == s && f.present) with
    | none => ents.getD s 0 = 0
    | some f => 0 < ents.getD s 0 ∧ ents.getD s 0 ≤ oo ∧ f.LiesAt bs (oo - ents.getD s 0)

/-- The state between the top-level calls that build a frame: outside any object, not finished,
and with the vtables kept for reuse where they were written. -/
structure Builder.Ready (b : Builder) : Prop where
  nested : b.nested = false
  finished : b.finished = false
  minalign : 0 < b.minalign ∧ b.minalign ≤ 8
  vtablesOK : VtablesOK b

theorem Builder.ready_reset (capacity : Nat) : (Builder.reset capacity).Ready :=
  ⟨rfl, rfl, ⟨Nat.one_pos, (by decide : 1 ≤ 8)⟩, fun _ h => nomatch h⟩

theorem Builder.Ready.of_grows {b b' : Builder} (hR : b.Ready) (hg : Grows b b') : b'.Ready :=
  ⟨hg.nested.trans hR.nested, hg.finished.trans hR.finished, hg.minalign hR.minalign.1 hR.minalign.2,
    hR.vtablesOK.grows hg⟩

/-- `Finish(root)` and `FinishedBytes()` on a ready builder: the bytes a reader opens at the root
table. -/
theorem finish_ready (hR : b.Ready) {root : Nat} (hr : root ≤ b.bytes.length)
    (h : b.bytes.length + 32 ≤ 2 ^ 30) :
    ∃ b', b.finish root = some b' ∧ b'.finishedBytes = some b'.bytes ∧ b.bytes <:+ b'.bytes ∧
      b'.bytes.length ≤ b.bytes.length + 16 ∧ getRoot b'.bytes = some ⟨b'.bytes, b'.bytes.length - root⟩ := by
  obtain ⟨b', h₁, hfin, hs, hl, hget⟩ := b.finish_spec hR.nested hR.minalign.1 hR.minalign.2 hr h
  refine ⟨b', h₁, if_pos hfin, hs, hl, ?_⟩
  simp only [getRoot, hget, Option.bind_eq_bind, Option.some_bind, Option.pure_def]

theorem getD_vtableEntries (vt : List Nat) (oo s : Nat) :
    (vtableEntries vt oo).getD s 0 = if vt.getD s 0 ≠ 0 then oo - vt.getD s 0 else 0 := by
  rw [vtableEntries, ← getD_trimVtable vt s]
  simp only [List.getD_eq_getElem?_getD, List.getElem?_map]
  cases (trimVtable vt)[s]? <;> simp

/-- Every field offset in the vtable under construction lies in the object. -/
theorem FieldsAt.vtable_bounds (hF : FieldsAt b e fs) :
    ∀ a ∈ b.vtable, a ≠ 0 → e < a ∧ a ≤ b.bytes.length := by
  intro a ha ha0
  obtain ⟨s, hs, rfl⟩ := List.getElem_of_mem ha
  have := hF s
  rw [List.getD_eq_getElem _ _ hs] at this
  split at this
  · exact absurd this ha0
  · exact ⟨this.1, this.2.2.le.2⟩

/-- The vtable `WriteVtable` writes for the fields written makes a table of them. -/
theorem FieldsAt.tableAt (hF : FieldsAt b e fs) {bs : List UInt8} {oo : Nat} (hoo : b.bytes.length < oo)
    (hobj : ObjectAt bs oo (vtableEntries b.vtable oo)) (hs : b.bytes <:+ bs) : TableAt bs oo fs := by
  refine ⟨_, hobj, fun s => ?_⟩
  have := hF s
  rw [getD_vtableEntries]
  cases hfind : fs.find? (fun f => f.slot == s && f.present) with
  | none => simp only [hfind] at this ⊢; rw [if_neg (not_not.mpr this)]
  | some f =>
    simp only [hfind] at this ⊢
    have hlen := this.2.2.le.2
    rw [if_pos (by omega), Nat.sub_sub_self (by omega)]
    exact ⟨by omega, Nat.sub_le _ _, this.2.mono hs⟩

/-- `StartObject(n)`, the field adds and `EndObject()`: the table lies at the offset `EndObject`
returns, with every field readable through its vtable. -/
theorem buildTable_spec (hR : b.Ready) (n : Nat) (fs : List FieldWrite)
    (hslot : ∀ f ∈ fs, f.slot < n) (hnd : (fs.map FieldWrite.slot).Nodup)
    (hfit : ∀ f ∈ fs, f.Fits b.bytes.length) (hsize : 2 * n + (fs.map FieldWrite.room).sum + 8 < 2 ^ 16)
    (h : b.bytes.length + (fs.map FieldWrite.room).sum + 2 * n + 24 ≤ 2 ^ 30) :
    ∃ b₁ b₂ b' oo, b.startObject n = some b₁ ∧ addFields fs b₁ = some b₂ ∧
      b₂.endObject = some (b', oo) ∧ b'.Ready ∧ b.bytes <:+ b'.bytes ∧ b.bytes.length < oo ∧
      b'.bytes.length ≤ b.bytes.length + (fs.map FieldWrite.room).sum + 2 * n + 12 ∧
      TableAt b'.bytes oo fs := by
  set b₁ : Builder := { b with
    nested := true, vtable := List.replicate n 0, objectEnd := b.bytes.length, minalign := 1 }
  have hF₁ : FieldsAt b₁ b.bytes.length [] := fun s => by
    simp only [b₁, List.find?_nil, List.getD_eq_getElem?_getD, List.getElem?_replicate]
    split <;> rfl
  have hb₁ : b₁.bytes.length = b.bytes.length := rfl
  have he₁ : b₁.objectEnd = b.bytes.length := rfl
  obtain ⟨b₂, h₂, hF₂, hg₂, hl₂⟩ := hF₁.addFields le_rfl (by simpa [b₁] using hslot) (by simpa using hnd) hfit
    (by omega)
  have hvl : b₂.vtable.length = n := by rw [hg₂.length_vtable, List.length_replicate]
  have hmin := hg₂.minalign Nat.one_pos (by decide : 1 ≤ 8)
  obtain ⟨b', oo, h₃, hoo, hsuf, hl₃, -, hnest, hfin, hmin', hok, hobj⟩ :=
    b₂.writeVtable_spec ((show VtablesOK b₁ from hR.vtablesOK).grows hg₂)
      (by simpa [hg₂.objectEnd] using hF₂.vtable_bounds) (by rw [hg₂.objectEnd]; omega) (by omega) (by omega)
  have hlen := hg₂.suffix.length_le
  refine ⟨_, b₂, { b' with nested := false }, oo, startObject_of_not_nested n hR.nested, h₂,
    by rw [endObject, if_pos hg₂.nested, h₃]; rfl,
    ⟨rfl, by rw [hfin, hg₂.finished]; exact hR.finished,
      by rw [hmin']; exact ⟨Nat.lt_of_lt_of_le hmin.1 (Nat.le_max_left _ _), Nat.max_le.mpr ⟨hmin.2, by decide⟩⟩,
      hok⟩,
    hg₂.suffix.trans hsuf, by omega, show b'.bytes.length ≤ _ by omega,
    (by simpa using hF₂ : FieldsAt b₂ b.bytes.length fs).tableAt (by omega) hobj hsuf⟩

/-! ## Reading a table back -/

variable {bs : List UInt8} {oo : Nat} {f : FieldWrite}

/-- In a table whose fields have distinct slots, the field of a slot is the one written in it,
when it was written at all. -/
theorem find?_of_mem (hnd : (fs.map FieldWrite.slot).Nodup) (hf : f ∈ fs) :
    fs.find? (fun g => g.slot == f.slot && g.present) = if f.present then some f else none := by
  induction fs with
  | nil => cases hf
  | cons g fs ih =>
    rw [List.map_cons, List.nodup_cons] at hnd
    rcases List.mem_cons.mp hf with rfl | hf
    · have hrest : fs.find? (fun g => g.slot == f.slot && g.present) = none :=
        List.find?_eq_none.mpr fun g hg h => by
          simp only [Bool.and_eq_true, beq_iff_eq] at h
          exact hnd.1 (h.1 ▸ List.mem_map_of_mem _ hg)
      by_cases hp : f.present <;> simp [List.find?_cons, hp, hrest]
    · have hne : g.slot ≠ f.slot := fun h => hnd.1 (h ▸ List.mem_map_of_mem _ hf)
      rw [List.find?_cons, ih hnd.2 hf, beq_false_of_ne hne, Bool.false_and]

theorem TableAt.mono (h : TableAt bs oo fs) {bs' : List UInt8} (hs : bs <:+ bs') : TableAt bs' oo fs := by
  obtain ⟨ents, hobj, hents⟩ := h
  refine ⟨ents, hobj.mono hs, fun s => ?_⟩
  have := hents s
  cases hfind : fs.find? (fun f => f.slot == s && f.present) with
  | none => simp only [hfind] at this ⊢; exact this
  | some f => simp only [hfind] at this ⊢; exact ⟨this.1, this.2.1, this.2.2.mono hs⟩

theorem TableAt.le_length (h : TableAt bs oo fs) : oo ≤ bs.length := by
  obtain ⟨_, ⟨_, hso, -⟩, -⟩ := h
  exact hso.le.2

/-- The vtable entry a reader finds for a field: the distance back to the field when it was
written, zero when it equals its default. -/
theorem TableAt.offset_of_mem (h : TableAt bs oo fs) (hb : bs.length < 2 ^ 31)
    (hnd : (fs.map FieldWrite.slot).Nodup) (hf : f ∈ fs) :
    ∃ e, (Table.mk bs (bs.length - oo)).offset (4 + 2 * f.slot) = some e ∧
      if f.present then 0 < e ∧ e ≤ oo ∧ f.LiesAt bs (oo - e) else e = 0 := by
  obtain ⟨ents, hobj, hents⟩ := h
  refine ⟨_, hobj.offset hb _, ?_⟩
  have := hents f.slot
  rw [find?_of_mem hnd hf] at this
  by_cases hp : f.present <;> simpa [hp] using this

/-- A scalar field reads back as written: its value when it was written, its default, equal to
it, when it was not. -/
theorem TableAt.scalarField (h : TableAt bs oo fs) (hb : bs.length < 2 ^ 31)
    (hnd : (fs.map FieldWrite.slot).Nodup) {s w x d : Nat} (hf : FieldWrite.scalar s w x d ∈ fs)
    (hx : x < 256 ^ w) : (Table.mk bs (bs.length - oo)).scalarField w s d = some x := by
  obtain ⟨e, he, hent⟩ := h.offset_of_mem hb hnd hf
  have hoo := h.le_length
  simp only [Table.scalarField, Option.bind_eq_bind, FieldWrite.slot] at he ⊢
  rw [he, Option.some_bind]
  by_cases hxd : x = d
  · simp [FieldWrite.present, hxd] at hent
    simp [hent, hxd]
  · simp only [FieldWrite.present, bne_iff_ne, ne_eq, hxd, not_false_eq_true, if_true] at hent
    obtain ⟨he0, heo, -, hat⟩ := hent
    have hget := hat.getLE
    rw [FieldWrite.bytesAt, length_leBytes, leValue_leBytes_of_lt hx] at hget
    rw [if_pos (by omega), show e + (bs.length - oo) = bs.length - (oo - e) by omega, hget]

/-- An offset field leads to the object it names, `x` bytes before the end of the buffer. -/
theorem TableAt.indirect (h : TableAt bs oo fs) (hb : bs.length < 2 ^ 31)
    (hnd : (fs.map FieldWrite.slot).Nodup) {s x : Nat} (hf : FieldWrite.offset s x ∈ fs) (hx : 0 < x) :
    ∃ e, (Table.mk bs (bs.length - oo)).offset (4 + 2 * s) = some e ∧ e ≠ 0 ∧ x ≤ bs.length ∧
      (Table.mk bs (bs.length - oo)).indirect (e + (bs.length - oo)) = some (bs.length - x) := by
  obtain ⟨e, he, hent⟩ := h.offset_of_mem hb hnd hf
  have hoo := h.le_length
  simp only [FieldWrite.present, bne_iff_ne, ne_eq, Nat.pos_iff_ne_zero.mp hx, not_false_eq_true,
    if_true, FieldWrite.LiesAt, FieldWrite.Fits, FieldWrite.bytesAt] at hent
  obtain ⟨he0, heo, hxe, hat⟩ := hent
  have hget := hat.getLE
  rw [length_leBytes, leValue_leBytes_of_lt (by have := hat.le; omega)] at hget
  refine ⟨e, he, by omega, by omega, ?_⟩
  simp only [Table.indirect, Option.bind_eq_bind]
  rw [show e + (bs.length - oo) = bs.length - (oo - e) by omega, hget]
  simp only [Option.some_bind, Option.pure_def, Option.some.injEq]
  omega

end Eventing.Flatbuffers
