import Eventing.Producer.NodeAssignment

/-!
# Vbucket to worker assignment on one node

`initWorkerVbMap` collects the vbuckets the node map gives to this node, sorts
them, and deals them out in one contiguous run per worker with the same
counting loops as `vbEventingNodeAssign`. Workers are named
`worker_<appName>_<i>`; a worker whose run is empty gets no map entry, since
an entry only appears on the first `append`.

## Implementation notes

The node's own address comes from an RPC outside the sources; it is the
parameter `eventingNodeAddr`. The `range` loop over the node map takes its
visiting order `ord`. `workerCount` is a Go `int`: zero panics in the
division and a negative count in `make`, so both are `none`.
-/

namespace Eventing.Producer

/-- `fmt.Sprintf("worker_%s_%d", p.app.AppName, i)`. -/
def workerName (appName : String) (i : Nat) : String :=
  "worker_" ++ appName ++ "_" ++ toString i

theorem workerName_injective (appName : String) : Function.Injective (workerName appName) := by
  intro i j h
  have := congrArg String.data h
  simp only [workerName, String.data_append, List.append_assoc,
    List.append_cancel_left_eq] at this
  exact toString_injective (String.ext this)

/-- `vbCountPerWorker`: the vbucket count of each worker. -/
def vbCountPerWorker (vbucketCount workerCount : Nat) : Option (List Nat) :=
  spreadCounts vbucketCount workerCount

/-- The inner loop for one worker: `count` appends of `vbucketsToHandle[startVbIndex]`. -/
def fillWorker (vbucketsToHandle : List Nat) (name : String) (count : Nat)
    (st : GoMap String (List UInt16) × Nat) : Option (GoMap String (List UInt16) × Nat) :=
  (List.range count).foldlM (fun st _ => vbucketsToHandle[st.2]?.map fun vb =>
    (st.1.push name (UInt16.ofNat vb), st.2 + 1)) st

/-- The loop over the workers, which share the running index `startVbIndex`. -/
def fillWorkers (appName : String) (vbucketsToHandle counts : List Nat) :
    Option (GoMap String (List UInt16)) :=
  (counts.enum.foldlM (fun st ic => fillWorker vbucketsToHandle (workerName appName ic.1) ic.2 st)
    (∅, 0)).map Prod.fst

/-- `vbucketsToHandle`: the keys the node map sends to `eventingNodeAddr`, as sorted ints. -/
def vbucketsToHandle (eventingNodeAddr : String) (vbEventingNodeAssignMap : GoMap UInt16 String)
    (ord : List UInt16) : List Nat :=
  sortInts ((ord.filter fun k => vbEventingNodeAssignMap.lookup k = some eventingNodeAddr).map
    UInt16.toNat)

/-- `Producer.initWorkerVbMap`: the worker to vbuckets map, `none` on a panic. -/
def initWorkerVbMap (appName : String) (workerCount : Int) (eventingNodeAddr : String)
    (vbEventingNodeAssignMap : GoMap UInt16 String) (ord : List UInt16) :
    Option (GoMap String (List UInt16)) :=
  let vbs := vbucketsToHandle eventingNodeAddr vbEventingNodeAssignMap ord
  if workerCount ≤ 0 then none
  else do
    let counts ← vbCountPerWorker vbs.length workerCount.toNat
    fillWorkers appName vbs counts

/-- The ascending list of the vbuckets a node map sends to `addr`. -/
def nodeVbs (m : GoMap UInt16 String) (addr : String) : List UInt16 :=
  (vbRange (2 ^ 16)).filter fun vb => m.lookup vb = some addr

theorem nodeVbs_sorted (m : GoMap UInt16 String) (addr : String) :
    (nodeVbs m addr).Sorted (· < ·) :=
  (vbRange_sorted le_rfl).filter _

theorem mem_nodeVbs {m : GoMap UInt16 String} {addr : String} {vb : UInt16} :
    vb ∈ nodeVbs m addr ↔ m.lookup vb = some addr := by
  have hvb : vb ∈ vbRange (2 ^ 16) := (mem_vbRange le_rfl vb).mpr vb.toNat_lt_size
  simp only [nodeVbs, List.mem_filter, hvb, true_and, decide_eq_true_eq]

/-! ## Filling one worker -/

theorem fillWorker_spec (vbs : List Nat) (name : String) (m : GoMap String (List UInt16))
    (t : Nat) : ∀ count, t + count ≤ vbs.length →
      ∃ m', fillWorker vbs name count (m, t) = some (m', t + count) ∧
        ∀ k, m'.lookup k = if k = name ∧ 0 < count
          then some (m.index name ++ ((vbs.drop t).take count).map UInt16.ofNat) else m.lookup k := by
  intro count
  induction count with
  | zero =>
      intro _
      exact ⟨m, rfl, fun k => by simp⟩
  | succ c ih =>
      intro hc
      obtain ⟨m', hm', hlook⟩ := ih (by omega)
      obtain ⟨v, hv⟩ : ∃ v, vbs[t + c]? = some v := ⟨_, List.getElem?_eq_getElem (by omega)⟩
      refine ⟨m'.push name (UInt16.ofNat v), ?_, fun k => ?_⟩
      · simp only [fillWorker, List.range_succ, List.foldlM_append] at hm' ⊢
        rw [hm']
        simp [hv, Nat.add_assoc]
      · have hseg : (vbs.drop t).take (c + 1) = (vbs.drop t).take c ++ [v] := by
          rw [List.take_succ, List.getElem?_drop, hv]
          rfl
        rw [GoMap.lookup_push, hlook]
        by_cases hk : k = name
        · subst hk
          have hidx : m'.index k = if 0 < c
              then m.index k ++ ((vbs.drop t).take c).map UInt16.ofNat else m.index k := by
            unfold GoMap.index
            rw [hlook]
            split <;> simp_all [GoMap.index]
          rw [if_pos rfl, if_pos ⟨rfl, by omega⟩, hidx, hseg]
          split <;> simp_all
        · simp [hk]

/-! ## Filling all workers -/

theorem foldlM_fillWorker (appName : String) (vbs : List Nat) :
    ∀ (cs : List Nat) (j t : Nat) (m : GoMap String (List UInt16)),
      t + cs.sum ≤ vbs.length →
      (∀ i < cs.length, m.lookup (workerName appName (j + i)) = none) →
      ∃ m', (cs.enumFrom j).foldlM
          (fun st ic => fillWorker vbs (workerName appName ic.1) ic.2 st) (m, t) =
            some (m', t + cs.sum) ∧
        (∀ i (hi : i < cs.length), m'.lookup (workerName appName (j + i)) =
          if 0 < cs[i] then some (((vbs.drop (t + (cs.take i).sum)).take cs[i]).map UInt16.ofNat)
          else none) ∧
        (∀ k, (∀ i < cs.length, k ≠ workerName appName (j + i)) → m'.lookup k = m.lookup k) := by
  intro cs
  induction cs with
  | nil =>
      intro j t m _ _
      exact ⟨m, by simp, fun i hi => by simp at hi, fun k _ => rfl⟩
  | cons c cs ih =>
      intro j t m ht hfresh
      simp only [List.sum_cons] at ht
      have hj : m.lookup (workerName appName j) = none := by simpa using hfresh 0 (by simp)
      obtain ⟨m₁, hm₁, hlook₁⟩ := fillWorker_spec vbs (workerName appName j) m t c (by omega)
      have hne : ∀ i, workerName appName (j + 1 + i) ≠ workerName appName j := fun i h => by
        have := workerName_injective appName h
        omega
      obtain ⟨m', hm', hown, hother⟩ := ih (j + 1) (t + c) m₁ (by omega) fun i hi => by
        rw [hlook₁, if_neg fun h => hne i h.1]
        have := hfresh (i + 1) (by simp; omega)
        rwa [show j + (i + 1) = j + 1 + i by omega] at this
      refine ⟨m', ?_, fun i hi => ?_, fun k hk => ?_⟩
      · simp only [List.enumFrom_cons, List.foldlM_cons, hm₁, Option.bind_eq_bind,
          Option.some_bind]
        rw [hm', Nat.add_assoc, List.sum_cons]
      · cases i with
        | zero =>
            rw [Nat.add_zero, hother _ fun i _ h => hne i h.symm, hlook₁]
            simp only [Nat.add_zero, List.getElem_cons_zero, List.take_zero, List.sum_nil,
              true_and, GoMap.index, hj, Option.getD_none]
            split <;> rfl
        | succ i =>
            rw [show j + (i + 1) = j + 1 + i by omega, hown i (by simpa using hi)]
            simp [Nat.add_assoc]
      · rw [hother k fun i hi h => hk (i + 1) (by simp; omega) (by rw [h]; congr 1; omega),
          hlook₁, if_neg fun h => hk 0 (by simp) (by simpa using h.1)]

/-! ## The worker map -/

/-- Worker `i`'s run: the `blockCount q r i` vbuckets of `V` from position `blockStart q r i`. -/
def workerRun (V : List UInt16) (q r i : Nat) : List UInt16 :=
  (V.drop (blockStart q r i)).take (blockCount q r i)

theorem flatten_workerRun (V : List UInt16) (q r : Nat) :
    ∀ i, ((List.range i).map (workerRun V q r)).flatten = V.take (blockStart q r i)
  | 0 => by simp [blockStart]
  | i + 1 => by
      rw [List.range_succ, List.map_append, List.flatten_append, flatten_workerRun V q r i,
        blockStart_succ, List.take_add]
      simp [workerRun]

theorem vbucketsToHandle_eq {m : GoMap UInt16 String} {ord : List UInt16} (hord : m.IsOrder ord)
    (addr : String) : vbucketsToHandle addr m ord = (nodeVbs m addr).map UInt16.toNat := by
  have hsorted := nodeVbs_sorted m addr
  refine sortInts_eq (List.Perm.map _ ?_) (List.pairwise_map.mpr (hsorted.imp id))
  refine (List.perm_ext_iff_of_nodup (hord.nodup.filter _) hsorted.nodup).mpr fun k => ?_
  have hk : k.toNat < 2 ^ 16 := k.toNat_lt_size
  simp only [nodeVbs, List.mem_filter, hord.mem_iff, mem_vbRange le_rfl, hk, true_and,
    decide_eq_true_eq]
  exact ⟨fun h => h.2, fun h => ⟨by rw [← AList.lookup_isSome, h]; rfl, h⟩⟩

/-- The worker map lists worker `i`'s run under `worker_<appName>_<i>` when it is not empty,
and has no other key. -/
theorem initWorkerVbMap_lookup (appName addr : String) {w : Nat} (hw : 0 < w)
    {m : GoMap UInt16 String} {ord : List UInt16} (hord : m.IsOrder ord) :
    ∃ W, initWorkerVbMap appName w addr m ord = some W ∧
      (∀ i < w, W.lookup (workerName appName i) =
        if 0 < blockCount ((nodeVbs m addr).length / w) ((nodeVbs m addr).length % w) i
        then some (workerRun (nodeVbs m addr) ((nodeVbs m addr).length / w)
          ((nodeVbs m addr).length % w) i)
        else none) ∧
      (∀ k, (∀ i < w, k ≠ workerName appName i) → W.lookup k = none) := by
  set V := nodeVbs m addr
  set cs := (List.range w).map (blockCount (V.length / w) (V.length % w))
  have hsum : cs.sum = V.length := by rw [sum_blockCount, blockStart_length hw]
  obtain ⟨W, hW, hown, hother⟩ := foldlM_fillWorker appName (V.map UInt16.toNat) cs 0 0 ∅
    (by simp [hsum]) (fun _ _ => rfl)
  refine ⟨W, ?_, fun i hi => ?_, fun k hk => ?_⟩
  · simp only [initWorkerVbMap, vbucketsToHandle_eq hord, List.length_map,
      show ¬((w : Int) ≤ 0) by omega, if_false, Int.toNat_ofNat, vbCountPerWorker,
      spreadCounts_eq hw, Option.bind_eq_bind, Option.some_bind, fillWorkers]
    rw [List.enum, hW]
    rfl
  · have hi' : i < cs.length := by simpa [cs] using hi
    rw [← Nat.zero_add i, hown i hi', Nat.zero_add, Nat.zero_add, take_blockCounts _ _ hi.le]
    simp only [cs, List.getElem_map, List.getElem_range, workerRun, ← List.map_drop,
      ← List.map_take, List.map_map, Function.comp_def, ofNat_toNat, List.map_id']
  · simpa using hother k fun i hi => by simpa using hk i (by simpa [cs] using hi)

theorem workerRun_length (V : List UInt16) {w i : Nat} (hw : 0 < w) (hi : i < w) :
    (workerRun V (V.length / w) (V.length % w) i).length =
      blockCount (V.length / w) (V.length % w) i := by
  have := (blockStart_mono (V.length / w) (V.length % w) hi).trans (blockStart_length hw).le
  rw [blockStart_succ] at this
  simp only [workerRun, List.length_take, List.length_drop]
  omega

section Built

variable {appName addr : String} {w : Nat} {m : GoMap UInt16 String} {ord : List UInt16}
  {W : GoMap String (List UInt16)}

theorem lookup_of_initWorkerVbMap (hw : 0 < w) (hord : m.IsOrder ord)
    (hW : initWorkerVbMap appName w addr m ord = some W) :
    (∀ i < w, W.lookup (workerName appName i) =
      if 0 < blockCount ((nodeVbs m addr).length / w) ((nodeVbs m addr).length % w) i
      then some (workerRun (nodeVbs m addr) ((nodeVbs m addr).length / w)
        ((nodeVbs m addr).length % w) i)
      else none) ∧
    (∀ k, (∀ i < w, k ≠ workerName appName i) → W.lookup k = none) := by
  obtain ⟨W', hW', h⟩ := initWorkerVbMap_lookup appName addr hw hord
  obtain rfl := Option.some.inj (hW.symm.trans hW')
  exact h

/-- Worker `i`'s list is its run. -/
theorem index_of_initWorkerVbMap (hw : 0 < w) (hord : m.IsOrder ord)
    (hW : initWorkerVbMap appName w addr m ord = some W) {i : Nat} (hi : i < w) :
    W.index (workerName appName i) = workerRun (nodeVbs m addr)
      ((nodeVbs m addr).length / w) ((nodeVbs m addr).length % w) i := by
  unfold GoMap.index
  rw [(lookup_of_initWorkerVbMap hw hord hW).1 i hi]
  split
  · exact Option.getD_some
  · have h0 : blockCount ((nodeVbs m addr).length / w) ((nodeVbs m addr).length % w) i = 0 := by
      omega
    simp only [workerRun, h0, List.take_zero, Option.getD_none]
    rfl

/-- The lists of workers `0, …, w - 1`, in order, concatenate to the node's vbuckets. -/
theorem flatten_of_initWorkerVbMap (hw : 0 < w) (hord : m.IsOrder ord)
    (hW : initWorkerVbMap appName w addr m ord = some W) :
    ((List.range w).map fun i => W.index (workerName appName i)).flatten = nodeVbs m addr := by
  rw [List.map_congr_left fun i hi => index_of_initWorkerVbMap hw hord hW (List.mem_range.mp hi),
    flatten_workerRun, blockStart_length hw, List.take_length]

/-- Every key is the name of a worker below `w` whose list is not empty. -/
theorem key_of_initWorkerVbMap (hw : 0 < w) (hord : m.IsOrder ord)
    (hW : initWorkerVbMap appName w addr m ord = some W) {k : String} (hk : k ∈ W) :
    ∃ i < w, k = workerName appName i ∧ W.index k ≠ [] := by
  have hsome := AList.lookup_isSome.mpr hk
  obtain ⟨hlook, hother⟩ := lookup_of_initWorkerVbMap hw hord hW
  by_cases hname : ∃ i < w, k = workerName appName i
  · obtain ⟨i, hi, rfl⟩ := hname
    refine ⟨i, hi, rfl, fun hnil => ?_⟩
    have hlen := workerRun_length (nodeVbs m addr) hw hi
    rw [← index_of_initWorkerVbMap hw hord hW hi, hnil, List.length_nil] at hlen
    rw [hlook i hi, if_neg (by omega)] at hsome
    cases hsome
  · rw [hother k fun i hi h => hname ⟨i, hi, h⟩] at hsome
    cases hsome

/-- A vbucket of the node lies in exactly one worker's list. -/
theorem existsUnique_of_initWorkerVbMap (hw : 0 < w) (hord : m.IsOrder ord)
    (hW : initWorkerVbMap appName w addr m ord = some W) {vb : UInt16}
    (hvb : vb ∈ nodeVbs m addr) : ∃! i, i < w ∧ vb ∈ W.index (workerName appName i) := by
  have hflat := flatten_of_initWorkerVbMap hw hord hW
  have hnodup := (nodeVbs_sorted m addr).nodup
  rw [← hflat, List.mem_flatten] at hvb
  obtain ⟨l, hl, hvl⟩ := hvb
  obtain ⟨i, hi, rfl⟩ := List.mem_map.mp hl
  refine ⟨i, ⟨List.mem_range.mp hi, hvl⟩, fun j hj => ?_⟩
  have hnd := (List.nodup_flatten.mp (hflat ▸ hnodup)).2
  rw [List.pairwise_map] at hnd
  by_contra hne
  exact hnd.forall (fun _ _ h => h.symm) (List.mem_range.mpr hj.1) hi hne hj.2 hvl

/-- Every list is an ascending run of the node's vbuckets. -/
theorem sorted_of_initWorkerVbMap (hw : 0 < w) (hord : m.IsOrder ord)
    (hW : initWorkerVbMap appName w addr m ord = some W) (k : String) :
    (W.index k).Sorted (· < ·) ∧ W.index k ⊆ nodeVbs m addr := by
  by_cases hk : k ∈ W
  · obtain ⟨i, hi, rfl, -⟩ := key_of_initWorkerVbMap hw hord hW hk
    rw [index_of_initWorkerVbMap hw hord hW hi]
    have hsub : (workerRun (nodeVbs m addr) ((nodeVbs m addr).length / w)
        ((nodeVbs m addr).length % w) i).Sublist (nodeVbs m addr) :=
      (List.take_sublist _ _).trans (List.drop_sublist _ _)
    exact ⟨(nodeVbs_sorted m addr).sublist hsub, hsub.subset⟩
  · have : W.lookup k = none := by
      by_contra h
      exact hk (AList.lookup_isSome.mp (Option.ne_none_iff_isSome.mp h))
    simp only [GoMap.index, this, Option.getD_none]
    exact ⟨List.sorted_nil, List.nil_subset _⟩

end Built

/-- The runs of workers `0, …, w - 1`, concatenated in order, give back the node's vbuckets;
run `i` has `q` or `q + 1` of them; every key is a worker name with a non-empty run, so
every vbucket of the node lies in exactly one worker's list, each list ascends, and list
lengths differ by at most one. -/
theorem initWorkerVbMap_partition (appName addr : String) (w : Nat) (hw : 0 < w)
    (m : GoMap UInt16 String) (ord : List UInt16) (hord : m.IsOrder ord) :
    ∃ W, initWorkerVbMap appName w addr m ord = some W ∧
      ((List.range w).map fun i => W.index (workerName appName i)).flatten = nodeVbs m addr ∧
      (∀ i < w, (W.index (workerName appName i)).length =
        (nodeVbs m addr).length / w + if i < (nodeVbs m addr).length % w then 1 else 0) ∧
      (∀ k ∈ W, ∃ i < w, k = workerName appName i ∧ W.index k ≠ []) ∧
      (∀ vb ∈ nodeVbs m addr, ∃! i, i < w ∧ vb ∈ W.index (workerName appName i)) ∧
      (∀ i, (W.index (workerName appName i)).Sorted (· < ·)) ∧
      (∀ i < w, ∀ j < w, (W.index (workerName appName i)).length ≤
        (W.index (workerName appName j)).length + 1) := by
  obtain ⟨W, hW, -⟩ := initWorkerVbMap_lookup appName addr hw hord
  have hlen : ∀ i < w, (W.index (workerName appName i)).length =
      blockCount ((nodeVbs m addr).length / w) ((nodeVbs m addr).length % w) i := fun i hi =>
    (index_of_initWorkerVbMap hw hord hW hi).symm ▸ workerRun_length _ hw hi
  exact ⟨W, hW, flatten_of_initWorkerVbMap hw hord hW, hlen,
    fun k => key_of_initWorkerVbMap hw hord hW,
    fun vb => existsUnique_of_initWorkerVbMap hw hord hW,
    fun i => (sorted_of_initWorkerVbMap hw hord hW _).1,
    fun i hi j hj => (hlen i hi).trans_le ((blockCount_le _ _ i j).trans_eq (by rw [hlen j hj]))⟩

theorem initWorkerVbMap_partition_two_workers :
    0 < 2 ∧ GoMap.IsOrder ((∅ : GoMap UInt16 String).insert 0 "a" |>.insert 1 "a") [0, 1] ∧
      ∃ W, initWorkerVbMap "app" 2 "a" ((∅ : GoMap UInt16 String).insert 0 "a" |>.insert 1 "a")
        [0, 1] = some W :=
  ⟨by decide, by decide,
    (initWorkerVbMap_partition "app" "a" 2 (by decide) _ [0, 1] (by decide)).imp fun _ h => h.1⟩

end Eventing.Producer
