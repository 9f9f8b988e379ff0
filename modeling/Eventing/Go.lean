import Mathlib.Data.List.AList
import Mathlib.Data.List.Sort
import Mathlib.Tactic.IntervalCases

/-!
# Go runtime shapes

A Go map is an association list with distinct keys and no fixed order: every
loop over a map takes its visiting order as an argument, any permutation of
the keys, and a missing key reads as the zero value. `sort.Sort` on `uint16`
slices becomes `List.mergeSort`; every list the code sorts is free of
repetitions, so the result does not depend on the sorting algorithm.

## Implementation notes

`fmt.Sprintf("%d", i)` is `toString i`. `toString_injective` reads `i` back
from its decimal digits, which is what keeps the worker names apart.
-/

namespace Eventing

/-- A Go `map[K]V`. -/
abbrev GoMap (K V : Type) := AList (fun _ : K => V)

namespace GoMap

variable {K V : Type}

/-- `ord` is an order in which a `range` loop over `m` may visit its keys. -/
def IsOrder (m : GoMap K V) (ord : List K) : Prop := ord.Perm m.keys

instance [DecidableEq K] (m : GoMap K V) (ord : List K) : Decidable (m.IsOrder ord) :=
  inferInstanceAs (Decidable (ord.Perm m.keys))

theorem IsOrder.nodup {m : GoMap K V} {ord : List K} (h : m.IsOrder ord) : ord.Nodup :=
  h.nodup_iff.mpr m.keys_nodup

theorem IsOrder.mem_iff {m : GoMap K V} {ord : List K} (h : m.IsOrder ord) (k : K) :
    k ∈ ord ↔ k ∈ m := by
  rw [List.Perm.mem_iff h, AList.mem_keys]

theorem default_eq_empty : (default : GoMap K V) = ∅ := rfl

variable [DecidableEq K]

/-- Go's `m[k]`: the stored value, or the zero value when `k` is absent. -/
def index [Inhabited V] (m : GoMap K V) (k : K) : V := (m.lookup k).getD default

/-- Go's `m[k] = append(m[k], x)` on a map of slices. -/
def push (m : GoMap K (List V)) (k : K) (x : V) : GoMap K (List V) :=
  m.insert k (m.index k ++ [x])

theorem index_of_lookup [Inhabited V] {m : GoMap K V} {k : K} {v : V}
    (h : m.lookup k = some v) : m.index k = v := by
  simp [index, h]

theorem lookup_insert_eq (m : GoMap K V) (k k' : K) (v : V) :
    (m.insert k v).lookup k' = if k' = k then some v else m.lookup k' := by
  by_cases h : k' = k
  · subst h; simp
  · simp [h, AList.lookup_insert_ne h]

/-- A key whose slice holds an element is present. -/
theorem mem_of_mem_index {m : GoMap K (List V)} {k : K} {x : V} (h : x ∈ m.index k) : k ∈ m := by
  unfold index at h
  cases hk : m.lookup k with
  | none => simp only [hk, Option.getD_none] at h; cases h
  | some l => exact AList.lookup_isSome.mp (by rw [hk]; rfl)

/-- `len(m)` of a map whose keys are the integers `0` to `k - 1`. -/
theorem keys_length_of_range {m : GoMap Int V} {k : Nat} (hkeys : ∀ i : Int, i ∈ m ↔ 0 ≤ i ∧ i < k) :
    m.keys.length = k := by
  have hp : m.keys.Perm ((List.range k).map ((↑) : Nat → Int)) :=
    (List.perm_ext_iff_of_nodup m.keys_nodup ((List.nodup_range k).map Nat.cast_injective)).mpr fun i =>
      (hkeys i).trans ⟨fun h => List.mem_map.mpr ⟨i.toNat, List.mem_range.mpr (by omega), by omega⟩,
        fun h => by obtain ⟨n, hn, rfl⟩ := List.mem_map.mp h; rw [List.mem_range] at hn; omega⟩
  rw [hp.length_eq, List.length_map, List.length_range]

theorem lookup_push (m : GoMap K (List V)) (k k' : K) (x : V) :
    (m.push k x).lookup k' = if k' = k then some (m.index k ++ [x]) else m.lookup k' := by
  by_cases h : k' = k
  · subst h; simp [push]
  · simp [push, h, AList.lookup_insert_ne h]

theorem index_insert [Inhabited V] (m : GoMap K V) (k k' : K) (v : V) :
    index (m.insert k v) k' = if k' = k then v else m.index k' := by
  rw [index, lookup_insert_eq]; split_ifs <;> rfl

@[simp] theorem index_empty [Inhabited V] (k : K) : index (∅ : GoMap K V) k = default := rfl

theorem index_of_not_mem [Inhabited V] {m : GoMap K V} {k : K} (h : k ∉ m) : m.index k = default := by
  simp [index, AList.lookup_eq_none.mpr h]

theorem mem_push (m : GoMap K (List V)) (k k' : K) (x : V) : k' ∈ m.push k x ↔ k' = k ∨ k' ∈ m :=
  AList.mem_insert _

theorem index_push (m : GoMap K (List V)) (k k' : K) (x : V) :
    index (m.push k x) k' = m.index k' ++ if k' = k then [x] else [] := by
  rw [push, index_insert]; split_ifs with h <;> simp [h]

end GoMap

/-! ## Vbucket lists -/

/-- Merge sort by a total, transitive, antisymmetric test returns the one sorted
permutation: the sorting algorithm does not matter. -/
theorem mergeSort_eq_of_perm {α : Type} {le : α → α → Bool}
    (trans : ∀ a b c, le a b = true → le b c = true → le a c = true)
    (total : ∀ a b, (le a b || le b a) = true)
    (antisymm : ∀ a b, le a b = true → le b a = true → a = b)
    {l l' : List α} (hp : l.Perm l') (hs : l'.Pairwise fun a b => le a b = true) :
    l.mergeSort le = l' :=
  haveI : IsAntisymm α fun a b => le a b = true := ⟨antisymm⟩
  List.eq_of_perm_of_sorted ((List.mergeSort_perm _ _).trans hp) (List.sorted_mergeSort trans total l) hs

/-- `sort.Sort(util.Uint16Slice(vbs))`: ascending order of `uint16` values. -/
def sortVbs (vbs : List UInt16) : List UInt16 := vbs.mergeSort fun a b => decide (a ≤ b)

/-- `sort.Ints`: ascending order of `int` values. -/
def sortInts (l : List Nat) : List Nat := l.mergeSort fun a b => decide (a ≤ b)

/-- Sorting a permutation of a strictly increasing list gives that list back. -/
theorem sortVbs_eq {l l' : List UInt16} (hp : l.Perm l') (hs : l'.Sorted (· < ·)) :
    sortVbs l = l' :=
  mergeSort_eq_of_perm (by simpa using fun a b c => @UInt16.le_trans a b c)
    (by simpa using UInt16.le_total)
    (fun a b h₁ h₂ => UInt16.toNat.inj (Nat.le_antisymm (of_decide_eq_true h₁) (of_decide_eq_true h₂)))
    hp (hs.imp fun h => decide_eq_true (Nat.le_of_lt h))

theorem sortInts_eq {l l' : List Nat} (hp : l.Perm l') (hs : l'.Sorted (· < ·)) :
    sortInts l = l' :=
  mergeSort_eq_of_perm (by simpa using fun a b c => @Nat.le_trans a b c)
    (by simpa using Nat.le_total) (fun a b h₁ h₂ => Nat.le_antisymm (by simpa using h₁) (by simpa using h₂))
    hp (hs.imp fun h => decide_eq_true (Nat.le_of_lt h))

/-- The vbuckets `0, …, n - 1` in ascending order. -/
def vbRange (n : Nat) : List UInt16 := (List.range n).map UInt16.ofNat

theorem toNat_add_one (s : UInt16) : (s + 1).toNat = (s.toNat + 1) % 2 ^ 16 := by
  simp [UInt16.toNat, UInt16.add_def, BitVec.toNat_add]

theorem toNat_ofNat_of_lt {n : Nat} (h : n < 2 ^ 16) : (UInt16.ofNat n).toNat = n :=
  UInt16.toNat_ofNat_of_lt h

instance uint16LtIrrefl : IsIrrefl UInt16 (· < ·) := ⟨fun _ h => Nat.lt_irrefl _ h⟩

theorem ofNat_toNat (vb : UInt16) : UInt16.ofNat vb.toNat = vb :=
  UInt16.toNat.inj (toNat_ofNat_of_lt vb.toNat_lt_size)

theorem mem_vbRange {n : Nat} (hn : n ≤ 2 ^ 16) (vb : UInt16) :
    vb ∈ vbRange n ↔ vb.toNat < n := by
  simp only [vbRange, List.mem_map, List.mem_range]
  constructor
  · rintro ⟨m, hm, rfl⟩
    rw [toNat_ofNat_of_lt (by omega)]
    exact hm
  · intro h
    exact ⟨vb.toNat, h, UInt16.toNat.inj (toNat_ofNat_of_lt (by omega))⟩

theorem vbRange_sorted {n : Nat} (hn : n ≤ 2 ^ 16) : (vbRange n).Sorted (· < ·) := by
  unfold vbRange
  refine List.pairwise_map.mpr ((List.pairwise_lt_range n).imp_of_mem ?_)
  intro a b ha hb hab
  show (UInt16.ofNat a).toNat < (UInt16.ofNat b).toNat
  rw [toNat_ofNat_of_lt (by simp at ha; omega), toNat_ofNat_of_lt (by simp at hb; omega)]
  exact hab

/-- A loop over a map whose keys are the vbuckets below `n` visits a permutation of them. -/
theorem GoMap.IsOrder.perm_vbRange {V : Type} {m : GoMap UInt16 V} {ord : List UInt16}
    (hord : m.IsOrder ord) {n : Nat} (hn : n ≤ 2 ^ 16) (hkeys : ∀ vb, vb ∈ m ↔ vb.toNat < n) :
    ord.Perm (vbRange n) :=
  (List.perm_ext_iff_of_nodup hord.nodup (vbRange_sorted hn).nodup).mpr fun vb => by
    rw [hord.mem_iff, hkeys, mem_vbRange hn]

/-! ## Decimal formatting -/

/-- The value of a decimal digit character. -/
def digitVal (c : Char) : Nat := c.toNat - 48

/-- The value of a string of decimal digits, most significant first. -/
def decimalVal (l : List Char) : Nat := l.foldl (fun acc c => 10 * acc + digitVal c) 0

theorem digitVal_digitChar {d : Nat} (h : d < 10) : digitVal (Nat.digitChar d) = d := by
  interval_cases d <;> rfl

/-- One digit of `Nat.toDigitsCore`, the last one first. -/
theorem toDigitsCore_succ (f n : Nat) (ds : List Char) :
    Nat.toDigitsCore 10 (f + 1) n ds = if n / 10 = 0 then Nat.digitChar (n % 10) :: ds
      else Nat.toDigitsCore 10 f (n / 10) (Nat.digitChar (n % 10) :: ds) := rfl

theorem toDigitsCore_append (f n : Nat) (ds : List Char) :
    Nat.toDigitsCore 10 f n ds = Nat.toDigitsCore 10 f n [] ++ ds := by
  induction f generalizing n ds with
  | zero => rfl
  | succ f ih =>
      simp only [toDigitsCore_succ]
      split
      · rfl
      · rw [ih _ (_ :: ds), ih _ [_]]
        simp

theorem decimalVal_toDigitsCore (f n : Nat) (h : n < f) :
    decimalVal (Nat.toDigitsCore 10 f n []) = n := by
  induction f generalizing n with
  | zero => omega
  | succ f ih =>
      rw [toDigitsCore_succ]
      split
      · simp [decimalVal, digitVal_digitChar (Nat.mod_lt n (by omega))]
        omega
      · rw [toDigitsCore_append]
        simp only [decimalVal, List.foldl_append, List.foldl_cons, List.foldl_nil] at ih ⊢
        rw [ih _ (by omega), digitVal_digitChar (Nat.mod_lt n (by omega))]
        omega

/-- `fmt`'s `%d` of a natural number determines the number. -/
theorem toString_injective : Function.Injective (toString : Nat → String) := by
  intro i j h
  have hd : Nat.toDigits 10 i = Nat.toDigits 10 j := congrArg String.data h
  have hi := decimalVal_toDigitsCore (i + 1) i (by omega)
  have hj := decimalVal_toDigitsCore (j + 1) j (by omega)
  unfold Nat.toDigits at hd
  rw [← hi, ← hj, hd]

/-! ## Loops over a slice

`for i := 0; i < n; i++` collecting one result per index is `(List.range n).mapM`. -/

/-- Loops whose turns agree on the indices visited collect the same results. -/
theorem mapM_congr_of_mem {α β : Type} {f g : α → Option β} :
    ∀ {l : List α}, (∀ a ∈ l, f a = g a) → l.mapM f = l.mapM g
  | [], _ => rfl
  | a :: l, h => by
    simp only [List.mapM_cons, h a (List.mem_cons_self a l),
      mapM_congr_of_mem fun b hb => h b (List.mem_cons_of_mem a hb)]

/-- Reading a slice element by element collects the slice. -/
theorem mapM_getElem?_range {α : Type} (l : List α) : (List.range l.length).mapM (l[·]?) = some l := by
  induction l using List.reverseRecOn with
  | nil => rfl
  | append_singleton l x ih =>
    rw [List.length_append, List.length_singleton, List.range_succ, List.mapM_append,
      mapM_congr_of_mem fun i hi => List.getElem?_append_left (List.mem_range.mp hi), ih, List.mapM_cons,
      List.mapM_nil]
    simp

/-- A loop whose every turn succeeds collects the results. -/
theorem mapM_some_map {α β : Type} {f : α → Option β} {g : α → β} :
    ∀ {l : List α}, (∀ a ∈ l, f a = some (g a)) → l.mapM f = some (l.map g)
  | [], _ => rfl
  | a :: l, h => by
    simp only [List.mapM_cons, h a (List.mem_cons_self a l),
      mapM_some_map fun b hb => h b (List.mem_cons_of_mem a hb), List.map_cons]
    rfl

end Eventing
