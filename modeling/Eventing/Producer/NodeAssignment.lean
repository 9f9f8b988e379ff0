import Eventing.Go

/-!
# Vbucket to eventing node assignment

`vbEventingNodeAssign` cuts the vbuckets `0, …, N - 1` into one contiguous
block per eventing node, in list order: each of the `k` nodes gets `N / k`
vbuckets and the first `N % k` nodes one more. The vbucket counter `startVb`
is a `uint16`, so the cut is exact only while `N ≤ 2 ^ 16`.

## Implementation notes

`NumVbuckets` is a package constant outside the sources; here it is the
parameter `numVbuckets`. The address lookups that precede the cut are retried
until they succeed and only produce `eventingNodeAddrs`. A Go panic (division
by zero, an index out of range) is `none`.
-/

namespace Eventing.Producer

/-- `vbCountPerNode[i] = vbCountPerNode[i] + 1`; the index panics when out of range. -/
def bumpAt (counts : List Nat) (i : Nat) : Option (List Nat) :=
  counts[i]?.map fun c => counts.set i (c + 1)

/-- The two counting loops that `vbEventingNodeAssign` and `initWorkerVbMap` share:
`total / parts` each, then one more for each index below `remainingVbs`. -/
def spreadCounts (total parts : Nat) : Option (List Nat) :=
  let perPart := total / parts
  let assigned := parts * perPart
  let remainingVbs := total - assigned
  if 0 < remainingVbs then
    (List.range remainingVbs).foldlM bumpAt (List.replicate parts perPart)
  else some (List.replicate parts perPart)

/-- `vbCountPerNode`: the vbucket count of each eventing node. -/
def vbCountPerNode (numVbuckets k : Nat) : Option (List Nat) := spreadCounts numVbuckets k

/-- The inner loop `for j := 0; j < v; j++ { m[startVb] = addr; startVb++ }`. -/
def assignVbs (addr : String) (v : Nat) (st : GoMap UInt16 String × UInt16) :
    GoMap UInt16 String × UInt16 :=
  (List.range v).foldl (fun st _ => (st.1.insert st.2 addr, st.2 + 1)) st

/-- One pass of the outer loop for `(i, v)`, which reads `eventingNodeAddrs[i]`. -/
def assignNode (eventingNodeAddrs : List String) (st : GoMap UInt16 String × UInt16)
    (iv : Nat × Nat) : Option (GoMap UInt16 String × UInt16) :=
  eventingNodeAddrs[iv.1]?.map fun addr => assignVbs addr iv.2 st

/-- The outer loop `for i, v := range vbCountPerNode`. -/
def assignNodes (eventingNodeAddrs : List String) (counts : List Nat) :
    Option (GoMap UInt16 String × UInt16) :=
  counts.enum.foldlM (assignNode eventingNodeAddrs) (∅, 0)

/-- `Producer.vbEventingNodeAssign`: the vbucket to node map, `none` on a panic. -/
def vbEventingNodeAssign (numVbuckets : Nat) (eventingNodeAddrs : List String) :
    Option (GoMap UInt16 String) :=
  if eventingNodeAddrs.length = 0 then none
  else do
    let counts ← vbCountPerNode numVbuckets eventingNodeAddrs.length
    let st ← assignNodes eventingNodeAddrs counts
    return st.1

/-! ## Block arithmetic -/

/-- The number of vbuckets of node `i`: `q`, plus one for the first `r` nodes. -/
def blockCount (q r i : Nat) : Nat := q + if i < r then 1 else 0

/-- The first vbucket of node `i`'s block. -/
def blockStart (q r i : Nat) : Nat := i * q + min i r

theorem blockStart_succ (q r i : Nat) :
    blockStart q r (i + 1) = blockStart q r i + blockCount q r i := by
  unfold blockStart blockCount
  rw [Nat.succ_mul]
  split <;> omega

theorem blockCount_le (q r i j : Nat) : blockCount q r i ≤ blockCount q r j + 1 := by
  unfold blockCount
  split <;> split <;> omega

theorem blockStart_mono (q r : Nat) {i j : Nat} (h : i ≤ j) : blockStart q r i ≤ blockStart q r j := by
  induction j with
  | zero => rw [Nat.le_zero.mp h]
  | succ j ih =>
      rw [blockStart_succ]
      rcases Nat.lt_or_ge i (j + 1) with h' | h'
      · have := ih (by omega); omega
      · rw [show i = j + 1 by omega, blockStart_succ]

theorem sum_blockCount (q r i : Nat) :
    ((List.range i).map (blockCount q r)).sum = blockStart q r i := by
  induction i with
  | zero => simp [blockStart]
  | succ i ih => simp [List.range_succ, ih, blockStart_succ]

theorem blockStart_length {N k : Nat} (hk : 0 < k) : blockStart (N / k) (N % k) k = N := by
  have := Nat.div_add_mod N k
  have := Nat.mod_lt N hk
  unfold blockStart
  omega

/-! ## The per-node counts -/

theorem foldlM_bumpAt (k q : Nat) :
    ∀ r, r ≤ k → (List.range r).foldlM bumpAt (List.replicate k q) =
      some ((List.range k).map (blockCount q r)) := by
  intro r
  induction r with
  | zero =>
      intro _
      refine congrArg some (List.ext_getElem? fun n => ?_)
      have hr : (List.range k)[n]? = if n < k then some n else none := by
        split <;> simp_all [List.getElem?_range]
      simp [List.getElem?_replicate, hr, blockCount]
  | succ r ih =>
      intro hr
      rw [List.range_succ, List.foldlM_append, ih (by omega)]
      simp only [List.foldlM_cons, List.foldlM_nil, Option.bind_eq_bind, Option.some_bind]
      simp only [bumpAt, List.getElem?_map, List.getElem?_range (show r < k by omega)]
      refine congrArg some (List.ext_getElem? fun n => ?_)
      rw [List.getElem?_set]
      by_cases h : n < k
      · by_cases hn : r = n
        · subst hn; simp [List.getElem?_range h, blockCount, h]
        · simp only [hn, if_false, List.getElem?_map, List.getElem?_range h, Option.map_some',
            blockCount]
          congr 2
          by_cases hnr : n < r <;> simp [hnr, show (n < r + 1) ↔ n < r by omega]
      · have hn : (List.range k)[n]? = none := by simpa using h
        simp [hn, show ¬r = n by omega]

theorem spreadCounts_eq {N k : Nat} (hk : 0 < k) :
    spreadCounts N k = some ((List.range k).map (blockCount (N / k) (N % k))) := by
  have hrem : N - k * (N / k) = N % k := by have := Nat.div_add_mod N k; omega
  have hlt := Nat.mod_lt N hk
  unfold spreadCounts
  simp only [hrem]
  split
  · exact foldlM_bumpAt k _ _ hlt.le
  · rw [← foldlM_bumpAt k _ _ hlt.le, show N % k = 0 by omega]
    rfl

/-! ## The assignment loops -/

theorem assignVbs_spec (addr : String) (m : GoMap UInt16 String) (s : UInt16) :
    ∀ v, s.toNat + v ≤ 2 ^ 16 →
      (assignVbs addr v (m, s)).2.toNat = (s.toNat + v) % 2 ^ 16 ∧
      ∀ vb, (assignVbs addr v (m, s)).1.lookup vb =
        if s.toNat ≤ vb.toNat ∧ vb.toNat < s.toNat + v then some addr else m.lookup vb := by
  have hs := s.toNat_lt_size
  intro v
  induction v with
  | zero =>
      intro _
      refine ⟨by simp [assignVbs, Nat.mod_eq_of_lt hs], fun vb => ?_⟩
      rw [if_neg (by omega)]
      rfl
  | succ v ih =>
      intro hv
      obtain ⟨h₁, h₂⟩ := ih (by omega)
      simp only [assignVbs, List.range_succ, List.foldl_append, List.foldl_cons,
        List.foldl_nil] at h₁ h₂ ⊢
      refine ⟨by rw [toNat_add_one, h₁]; omega, fun vb => ?_⟩
      rw [GoMap.lookup_insert_eq, h₂]
      have hst := h₁.trans (Nat.mod_eq_of_lt (by omega))
      have hvb : vb = (List.foldl (fun st _ => (st.1.insert st.2 addr, st.2 + 1)) (m, s)
          (List.range v)).2 ↔ vb.toNat = s.toNat + v :=
        ⟨fun h => h ▸ hst, fun h => UInt16.toNat.inj (h.trans hst.symm)⟩
      by_cases h : vb.toNat = s.toNat + v
      · rw [if_pos (hvb.mpr h), if_pos (by omega)]
      · simp only [hvb, h, if_false]
        congr 1
        simp only [eq_iff_iff]
        omega

/-- The index of the run that holds offset `n`, for consecutive runs of lengths `cs`. -/
def runIndex : List Nat → Nat → Nat
  | [], _ => 0
  | c :: cs, n => if n < c then 0 else runIndex cs (n - c) + 1

theorem foldlM_assignNode (L : List String) :
    ∀ (cs : List Nat) (j : Nat) (m : GoMap UInt16 String) (s : UInt16),
      j + cs.length ≤ L.length → s.toNat + cs.sum ≤ 2 ^ 16 →
      ∃ st, (cs.enumFrom j).foldlM (assignNode L) (m, s) = some st ∧
        st.2.toNat = (s.toNat + cs.sum) % 2 ^ 16 ∧
        ∀ vb, st.1.lookup vb = if s.toNat ≤ vb.toNat ∧ vb.toNat < s.toNat + cs.sum
          then L[j + runIndex cs (vb.toNat - s.toNat)]? else m.lookup vb := by
  intro cs
  induction cs with
  | nil =>
      intro j m s _ _
      refine ⟨(m, s), rfl, by simp [Nat.mod_eq_of_lt s.toNat_lt_size], fun vb => ?_⟩
      simp only [List.sum_nil]
      rw [if_neg (by omega)]
  | cons c cs ih =>
      intro j m s hj hs
      simp only [List.length_cons, List.sum_cons] at hj hs
      obtain ⟨a, ha⟩ : ∃ a, L[j]? = some a := ⟨_, List.getElem?_eq_getElem (by omega)⟩
      obtain ⟨h₁, h₂⟩ := assignVbs_spec a m s c (by omega)
      obtain ⟨st, hst, hst₁, hst₂⟩ := ih (j + 1) (assignVbs a c (m, s)).1 (assignVbs a c (m, s)).2
        (by omega) (by rw [h₁]; omega)
      refine ⟨st, ?_, ?_, fun vb => ?_⟩
      · simp only [List.enumFrom_cons, List.foldlM_cons, assignNode, ha, Option.map_some',
          Option.bind_eq_bind, Option.some_bind]
        exact hst
      · rw [hst₁, h₁, List.sum_cons]
        omega
      · rw [hst₂, h₂, h₁, List.sum_cons, runIndex]
        by_cases hlo : vb.toNat < s.toNat + c
        · by_cases hs' : s.toNat ≤ vb.toNat
          · rw [if_neg (by omega), if_pos ⟨hs', hlo⟩, if_pos ⟨hs', by omega⟩,
              if_pos (by omega), Nat.add_zero, ha]
          · rw [if_neg (by omega), if_neg (by omega), if_neg (by omega)]
        · rw [if_neg (show ¬(s.toNat ≤ vb.toNat ∧ vb.toNat < s.toNat + c) by omega),
            if_neg (show ¬(vb.toNat - s.toNat < c) by omega)]
          by_cases hin : vb.toNat < s.toNat + (c + cs.sum)
          · rw [if_pos (by omega), if_pos (by omega),
              show vb.toNat - (s.toNat + c) % 2 ^ 16 = vb.toNat - s.toNat - c by omega,
              Nat.add_assoc, Nat.add_comm 1]
          · rw [if_neg (by omega), if_neg (by omega)]

/-! ## Runs and blocks -/

theorem runIndex_lt : ∀ (cs : List Nat) (n : Nat), n < cs.sum → runIndex cs n < cs.length
  | [], _, h => by simp at h
  | c :: cs, n, h => by
      simp only [runIndex, List.length_cons]
      split
      · omega
      · have := runIndex_lt cs (n - c) (by simp at h; omega)
        omega

theorem runIndex_eq_iff : ∀ (cs : List Nat) (n i : Nat), i < cs.length → n < cs.sum →
    (runIndex cs n = i ↔ (cs.take i).sum ≤ n ∧ n < (cs.take (i + 1)).sum)
  | [], _, _, hi, _ => by simp at hi
  | c :: cs, n, 0, _, _ => by
      simp only [runIndex]
      split <;> simp <;> omega
  | c :: cs, n, i + 1, hi, hn => by
      simp only [runIndex, List.take_succ_cons, List.sum_cons]
      split
      · omega
      · simp only [List.length_cons, List.sum_cons] at hi hn
        rw [Nat.add_right_cancel_iff, runIndex_eq_iff cs (n - c) i (by omega) (by omega)]
        omega

theorem take_blockCounts (q r : Nat) {k i : Nat} (h : i ≤ k) :
    (((List.range k).map (blockCount q r)).take i).sum = blockStart q r i := by
  rw [← List.map_take, List.take_range, Nat.min_eq_left h, sum_blockCount]

theorem runIndex_blocks_iff (q r : Nat) {k n i : Nat} (hi : i < k) (hn : n < blockStart q r k) :
    runIndex ((List.range k).map (blockCount q r)) n = i ↔
      blockStart q r i ≤ n ∧ n < blockStart q r (i + 1) := by
  rw [runIndex_eq_iff _ _ _ (by simpa using hi) (by rwa [sum_blockCount]),
    take_blockCounts q r hi.le, take_blockCounts q r hi]

/-- The node map as a function: a vbucket below `N` goes to the address of the block that
holds it, and nothing else is a key. -/
theorem vbEventingNodeAssign_lookup {N : Nat} {L : List String} (hL : L ≠ [])
    (hN : N ≤ 2 ^ 16) :
    ∃ M, vbEventingNodeAssign N L = some M ∧ ∀ vb, M.lookup vb =
      if vb.toNat < N then
        L[runIndex ((List.range L.length).map (blockCount (N / L.length) (N % L.length)))
          vb.toNat]?
      else none := by
  have hk : 0 < L.length := List.length_pos.mpr hL
  have hsum : ((List.range L.length).map (blockCount (N / L.length) (N % L.length))).sum = N := by
    rw [sum_blockCount, blockStart_length hk]
  obtain ⟨st, hst, -, hlook⟩ := foldlM_assignNode L
    ((List.range L.length).map (blockCount (N / L.length) (N % L.length))) 0 ∅ 0
    (by simp) (by simpa [hsum] using hN)
  refine ⟨st.1, ?_, fun vb => ?_⟩
  · simp only [vbEventingNodeAssign, Nat.pos_iff_ne_zero.mp hk, if_false,
      vbCountPerNode, spreadCounts_eq hk, Option.bind_eq_bind, Option.some_bind, assignNodes]
    rw [List.enum, hst]
    rfl
  · rw [hlook, hsum]
    simp

theorem runIndex_blockCounts_lt {N k n : Nat} (hk : 0 < k) (hn : n < N) :
    runIndex ((List.range k).map (blockCount (N / k) (N % k))) n < k := by
  simpa using runIndex_lt ((List.range k).map (blockCount (N / k) (N % k))) n
    (by rw [sum_blockCount, blockStart_length hk]; exact hn)

/-- A vbucket below `N` goes to an address of `L`, and no other vbucket is a key. -/
theorem lookup_of_vbEventingNodeAssign {N : Nat} {L : List String} {M : GoMap UInt16 String}
    (hN : N ≤ 2 ^ 16) (hM : vbEventingNodeAssign N L = some M) (vb : UInt16) :
    (vb.toNat < N → ∃ a ∈ L, M.lookup vb = some a) ∧ (vb ∈ M → vb.toNat < N) := by
  have hL : L ≠ [] := by
    rintro rfl
    cases hM
  obtain ⟨M', hM', hlook⟩ := vbEventingNodeAssign_lookup hL hN
  obtain rfl := Option.some.inj (hM.symm.trans hM')
  refine ⟨fun h => ?_, fun h => ?_⟩
  · rw [hlook, if_pos h, List.getElem?_eq_getElem
      (runIndex_blockCounts_lt (List.length_pos.mpr hL) h)]
    exact ⟨_, List.getElem_mem _, rfl⟩
  · by_contra hc
    rw [← AList.lookup_isSome, hlook, if_neg hc] at h
    cases h

/-- Every vbucket of node `i`'s block goes to `L[i]`; the blocks are consecutive, of sizes
`q` or `q + 1`, and end at `N`; the key set is `[0, N)`; and when the addresses are distinct,
`vb` goes to `L[i]` exactly when it lies in block `i`. -/
theorem vbEventingNodeAssign_blocks (L : List String) (N : Nat) (hL : L ≠ [])
    (hN : N ≤ 2 ^ 16) :
    ∃ M, vbEventingNodeAssign N L = some M ∧
      (∀ vb : UInt16, vb ∈ M ↔ vb.toNat < N) ∧
      (∀ i (hi : i < L.length) (vb : UInt16),
        blockStart (N / L.length) (N % L.length) i ≤ vb.toNat →
        vb.toNat < blockStart (N / L.length) (N % L.length) (i + 1) → M.lookup vb = some L[i]) ∧
      (∀ i, blockStart (N / L.length) (N % L.length) (i + 1) =
        blockStart (N / L.length) (N % L.length) i +
          (N / L.length + if i < N % L.length then 1 else 0)) ∧
      blockStart (N / L.length) (N % L.length) L.length = N ∧
      (∀ i j, blockCount (N / L.length) (N % L.length) i ≤
        blockCount (N / L.length) (N % L.length) j + 1) ∧
      (L.Nodup → ∀ i (hi : i < L.length) (vb : UInt16), M.lookup vb = some L[i] ↔
        blockStart (N / L.length) (N % L.length) i ≤ vb.toNat ∧
          vb.toNat < blockStart (N / L.length) (N % L.length) (i + 1)) := by
  have hk : 0 < L.length := List.length_pos.mpr hL
  obtain ⟨M, hM, hlook⟩ := vbEventingNodeAssign_lookup hL hN
  have hend := blockStart_length (N := N) hk
  have hin : ∀ i (hi : i < L.length) (vb : UInt16),
      blockStart (N / L.length) (N % L.length) i ≤ vb.toNat →
      vb.toNat < blockStart (N / L.length) (N % L.length) (i + 1) → M.lookup vb = some L[i] := by
    intro i hi vb hlo hhi
    have hmono : blockStart (N / L.length) (N % L.length) (i + 1) ≤ N :=
      (blockStart_mono _ _ hi).trans hend.le
    rw [hlook, if_pos (by omega),
      (runIndex_blocks_iff _ _ hi (by omega)).mpr ⟨hlo, hhi⟩, List.getElem?_eq_getElem hi]
  have hrun : ∀ n < N,
      runIndex ((List.range L.length).map (blockCount (N / L.length) (N % L.length))) n < L.length :=
    fun n hn => by
      have := runIndex_lt _ n (by rw [sum_blockCount, hend]; exact hn)
      rwa [List.length_map, List.length_range] at this
  refine ⟨M, hM, fun vb => ?_, hin, fun i => blockStart_succ _ _ i, hend,
    blockCount_le _ _, fun hnd i hi vb => ⟨fun h => ?_, fun h => hin i hi vb h.1 h.2⟩⟩
  · rw [← AList.lookup_isSome, hlook]
    split
    · rename_i h
      simp [List.getElem?_eq_getElem (hrun _ h), h]
    · rename_i h
      simp [h]
  · have hvb : vb.toNat < N := by
      by_contra hc
      rw [hlook, if_neg hc] at h
      cases h
    set j := runIndex ((List.range L.length).map (blockCount (N / L.length) (N % L.length)))
      vb.toNat with hj
    have hjk : j < L.length := hrun _ hvb
    rw [hlook, if_pos hvb, ← hj, List.getElem?_eq_getElem hjk, Option.some_inj,
      hnd.getElem_inj_iff] at h
    subst h
    exact (runIndex_blocks_iff _ _ hjk (by omega)).mp hj.symm

theorem vbEventingNodeAssign_blocks_three_nodes :
    ["a", "b", "c"] ≠ [] ∧ 1024 ≤ 2 ^ 16 ∧ ["a", "b", "c"].Nodup ∧
      ∃ M, vbEventingNodeAssign 1024 ["a", "b", "c"] = some M :=
  ⟨by decide, by decide, by decide,
    (vbEventingNodeAssign_blocks ["a", "b", "c"] 1024 (by decide) (by decide)).imp fun _ h => h.1⟩

/-- With a repeated address, `vb = 1` goes to `L[0]` although it lies outside block `0`. -/
theorem vbEventingNodeAssign_repeated_address :
    (vbEventingNodeAssign 2 ["a", "a"]).bind (AList.lookup 1) = some ["a", "a"][0] ∧
      ¬ (blockStart (2 / 2) (2 % 2) 0 ≤ 1 ∧ 1 < blockStart (2 / 2) (2 % 2) 1) := by
  decide

/-! ## The KV vbucket map -/

/-- What the cluster info cache answers for one KV node: `GetServiceAddress` and `GetVBuckets`,
each a value and an error. The vbucket numbers are naturals; `uint16(·)` keeps their low 16 bits. -/
structure KvNodeInfo where
  serviceAddress : String × Option String
  vbuckets : List Nat × Option String

/-- The loop `for i := 0; i < len(vbs); i++ { p.kvVbMap[uint16(vbs[i])] = addr }`. -/
def addKvVbs (addr : String) (vbs : List Nat) (m : GoMap UInt16 String) : GoMap UInt16 String :=
  vbs.foldl (fun m vb => m.insert (UInt16.ofNat vb) addr) m

/-- One pass of the loop over the KV nodes: a node whose address or vbuckets cannot be read is
skipped. -/
def addKvNode (m : GoMap UInt16 String) (n : KvNodeInfo) : GoMap UInt16 String :=
  match n.serviceAddress, n.vbuckets with
  | (addr, none), (vbs, none) => addKvVbs addr vbs m
  | _, _ => m

/-- `Producer.getKvVbMap`, over the KV nodes `kvAddrs` of the cluster info cache in its order. -/
def getKvVbMap (kvAddrs : List KvNodeInfo) : GoMap UInt16 String := kvAddrs.foldl addKvNode ∅

/-- Both calls for the node succeeded. -/
def KvNodeInfo.readable (n : KvNodeInfo) : Bool := n.serviceAddress.2.isNone && n.vbuckets.2.isNone

/-- The node reports a vbucket number whose low 16 bits are `vb`. -/
def KvNodeInfo.reports (vb : UInt16) (n : KvNodeInfo) : Bool := n.vbuckets.1.any fun x => UInt16.ofNat x == vb

theorem lookup_addKvVbs (addr : String) (vbs : List Nat) (m : GoMap UInt16 String) (vb : UInt16) :
    (addKvVbs addr vbs m).lookup vb =
      if vbs.any (fun x => UInt16.ofNat x == vb) then some addr else m.lookup vb := by
  induction vbs generalizing m with
  | nil => rfl
  | cons x xs ih =>
    simp only [addKvVbs, List.foldl_cons] at ih ⊢
    rw [ih, GoMap.lookup_insert_eq, List.any_cons]
    by_cases hx : vb = UInt16.ofNat x
    · subst hx
      simp
    · have hx' : UInt16.ofNat x ≠ vb := fun h => hx h.symm
      simp [hx, hx']

theorem lookup_addKvNode (m : GoMap UInt16 String) (n : KvNodeInfo) (vb : UInt16) :
    (addKvNode m n).lookup vb =
      if n.readable && n.reports vb then some n.serviceAddress.1 else m.lookup vb := by
  obtain ⟨⟨addr, ea⟩, ⟨vbs, ev⟩⟩ := n
  cases ea <;> cases ev <;> simp [addKvNode, KvNodeInfo.readable, KvNodeInfo.reports, lookup_addKvVbs]

/-- The KV map sends each vbucket to the address of the last node, in the cache's order, that
reports a vbucket number with those low 16 bits and whose address and vbuckets could be read;
a vbucket no such node reports is absent. -/
theorem getKvVbMap_lookup (kvAddrs : List KvNodeInfo) (vb : UInt16) :
    (getKvVbMap kvAddrs).lookup vb =
      (((kvAddrs.filter KvNodeInfo.readable).reverse.find? (KvNodeInfo.reports vb)).map
        fun n => n.serviceAddress.1) := by
  suffices h : ∀ m, (kvAddrs.foldl addKvNode m).lookup vb =
      (((kvAddrs.filter KvNodeInfo.readable).reverse.find? (KvNodeInfo.reports vb)).map
        fun n => n.serviceAddress.1).or (m.lookup vb) by
    simpa using h ∅
  induction kvAddrs with
  | nil => intro m; simp
  | cons n ns ih =>
    intro m
    rw [List.foldl_cons, ih, lookup_addKvNode, List.filter_cons]
    cases hr : n.readable <;> cases hp : n.reports vb <;>
      simp [hr, hp, List.find?_append, Option.or_assoc, Option.map_or']


end Eventing.Producer
