import Eventing.Producer.WorkerAssignment

/-! # Vbucket ownership checks of a consumer

A consumer reads its producer's node map and worker map to decide which
vbuckets it should own, and compares that plan with the ownership recorded in
`vbProcessingStats` to list what it still has to take over or to give up.

## Implementation notes

`NodeUUID()`, `ConsumerName()` and `HostPortAddr()` return the fields `uuid`,
`workerName` and `hostPortAddr`. A stat is read through `getVbStat`, which
dereferences the vbucket's entry, so a vbucket with no entry panics: `none`.
Only the ownership stats are kept, as the strings the sources store in them.
Every `range` loop over a map takes its visiting order as an argument.
-/

namespace Eventing

open Producer

/-- The ownership stats of one vbucket in `vbProcessingStats`. -/
structure VbStat where
  nodeUuid : String
  assignedWorker : String
  currentVbOwner : String
  dcpStreamStatus : String
  deriving DecidableEq, Repr

/-- The parts of a `Consumer` that the rebalance code reads; the two maps are its producer's. -/
structure Consumer where
  uuid : String
  workerName : String
  hostPortAddr : String
  appName : String
  eventingDir : String
  vbEventingNodeAssignMap : GoMap UInt16 String
  workerVbMap : GoMap String (List UInt16)
  vbProcessingStats : GoMap UInt16 VbStat

namespace Consumer

variable (c : Consumer)

/-- `checkIfCurrentNodeShouldOwnVb`: the node map sends `vb` to this node. -/
def checkIfCurrentNodeShouldOwnVb (vb : UInt16) : Bool :=
  c.vbEventingNodeAssignMap.index vb == c.hostPortAddr

/-- `checkIfConsumerShouldOwnVb`: `vb` is in the worker map's list for `workerName`. -/
def checkIfConsumerShouldOwnVb (vb : UInt16) (workerName : String) : Bool :=
  (c.workerVbMap.index workerName).elem vb

/-- `checkIfCurrentConsumerShouldOwnVb`: the same loop over this consumer's own list. -/
def checkIfCurrentConsumerShouldOwnVb (vb : UInt16) : Bool :=
  c.checkIfConsumerShouldOwnVb vb c.workerName

/-- `getConsumerForGivenVbucket`: the first worker, in the visiting order `ord`, whose list
holds `vb`. -/
def getConsumerForGivenVbucket (ord : List String) (vb : UInt16) : String :=
  (ord.find? (c.checkIfConsumerShouldOwnVb vb)).getD ""

/-- The loop of `getVbRemainingToOwn` and `getVbRemainingToGiveUp`: append each vbucket of
`ord` whose stats pass `test`. -/
def collectVbs (stats : GoMap UInt16 VbStat) (test : UInt16 → VbStat → Bool)
    (ord : List UInt16) : Option (List UInt16) :=
  ord.foldlM (fun vbs vb => (stats.lookup vb).map fun st => if test vb st then vbs ++ [vb] else vbs)
    []

/-- `getVbRemainingToOwn`, visiting the node map in the order `ord`. -/
def getVbRemainingToOwn (ord : List UInt16) : Option (List UInt16) :=
  (collectVbs c.vbProcessingStats (fun vb st =>
    (st.nodeUuid != c.uuid || st.assignedWorker != c.workerName) &&
      c.checkIfCurrentConsumerShouldOwnVb vb) ord).map sortVbs

/-- `getVbRemainingToGiveUp`, visiting `vbProcessingStats` in the order `ord`. -/
def getVbRemainingToGiveUp (ord : List UInt16) : Option (List UInt16) :=
  (collectVbs c.vbProcessingStats (fun vb st =>
    c.workerName == st.assignedWorker && !c.checkIfCurrentConsumerShouldOwnVb vb) ord).map sortVbs

/-- `getVbsOwned`, visiting the node map in the order `ord`. -/
def getVbsOwned (ord : List UInt16) : List UInt16 :=
  sortVbs (ord.filter fun vb => c.vbEventingNodeAssignMap.index vb == c.hostPortAddr &&
    c.checkIfCurrentNodeShouldOwnVb vb && c.checkIfConsumerShouldOwnVb vb c.workerName)

/-- `vbsToHandle`: the worker map's list for this consumer. -/
def vbsToHandle : List UInt16 := c.workerVbMap.index c.workerName

/-- The stats of `vb` name this consumer's worker. -/
def statsNameWorker (vb : UInt16) : Bool :=
  (c.vbProcessingStats.lookup vb).any fun st => st.assignedWorker == c.workerName

/-- The stats of `vb` name this consumer: its node and its worker. -/
def statsNameConsumer (vb : UInt16) : Bool :=
  (c.vbProcessingStats.lookup vb).any fun st =>
    st.nodeUuid == c.uuid && st.assignedWorker == c.workerName

/-- `c` runs on node `a` of a cluster whose producers share the node map `M`, and node `a`'s
producer built the worker map `W a`. -/
def RunsOn (M : GoMap UInt16 String) (W : String → GoMap String (List UInt16)) (a : String) :
    Prop :=
  c.hostPortAddr = a ∧ c.vbEventingNodeAssignMap = M ∧ c.workerVbMap = W a

/-! ## The lists of a rebalance pass -/

@[simp] theorem checkIfCurrentNodeShouldOwnVb_eq_true {vb : UInt16} :
    c.checkIfCurrentNodeShouldOwnVb vb = true ↔
      c.vbEventingNodeAssignMap.index vb = c.hostPortAddr := beq_iff_eq

@[simp] theorem checkIfConsumerShouldOwnVb_eq_true {vb : UInt16} {workerName : String} :
    c.checkIfConsumerShouldOwnVb vb workerName = true ↔ vb ∈ c.workerVbMap.index workerName :=
  List.elem_iff

theorem foldlM_collect (stats : GoMap UInt16 VbStat) (test : UInt16 → VbStat → Bool) :
    ∀ (ord acc : List UInt16), (∀ vb ∈ ord, vb ∈ stats) →
      ord.foldlM (fun vbs vb => (stats.lookup vb).map fun st =>
          if test vb st then vbs ++ [vb] else vbs) acc =
        some (acc ++ ord.filter fun vb => (stats.lookup vb).any (test vb))
  | [], acc, _ => by simp
  | vb :: ord, acc, h => by
      obtain ⟨st, hst⟩ := Option.isSome_iff_exists.mp (AList.lookup_isSome.mpr (h vb (.head _)))
      have ih := foldlM_collect stats test ord
      simp only [List.foldlM_cons, hst, Option.map_some', Option.bind_eq_bind, Option.some_bind,
        List.filter_cons, Option.any_some]
      split <;> simp [ih _ fun v hv => h v (.tail _ hv)]

/-- Over stats with key set `[0, N)`, visited in any order, the sorted loop result lists the
vbuckets below `N` whose stats pass `test`, in ascending order. -/
theorem collectVbs_sort {stats : GoMap UInt16 VbStat} {N : Nat} (hN : N ≤ 2 ^ 16)
    (hstats : ∀ vb, vb ∈ stats ↔ vb.toNat < N) {ord : List UInt16} (hord : ord.Perm (vbRange N))
    (test : UInt16 → VbStat → Bool) :
    (collectVbs stats test ord).map sortVbs =
      some ((vbRange N).filter fun vb => (stats.lookup vb).any (test vb)) := by
  have hmem : ∀ vb ∈ ord, vb ∈ stats := fun vb hvb =>
    (hstats vb).mpr ((mem_vbRange hN vb).mp (hord.subset hvb))
  rw [collectVbs, foldlM_collect stats test ord [] hmem, Option.map_some', List.nil_append,
    sortVbs_eq (hord.filter _) ((vbRange_sorted hN).filter _)]

section Plan

variable {c} {N : Nat} (hN : N ≤ 2 ^ 16) (hstats : ∀ vb, vb ∈ c.vbProcessingStats ↔ vb.toNat < N)
include hN hstats

theorem exists_stat {vb : UInt16} (hvb : vb ∈ vbRange N) :
    ∃ st, c.vbProcessingStats.lookup vb = some st :=
  Option.isSome_iff_exists.mp (AList.lookup_isSome.mpr ((hstats vb).mpr ((mem_vbRange hN vb).mp hvb)))

/-- `getVbRemainingToOwn` lists, in ascending order, the vbuckets this consumer should own
whose stats do not name both its node and its worker. -/
theorem getVbRemainingToOwn_eq (hnode : ∀ vb, vb ∈ c.vbEventingNodeAssignMap ↔ vb.toNat < N)
    {ord : List UInt16} (hord : c.vbEventingNodeAssignMap.IsOrder ord) :
    c.getVbRemainingToOwn ord = some ((vbRange N).filter fun vb =>
      c.checkIfCurrentConsumerShouldOwnVb vb && !c.statsNameConsumer vb) := by
  rw [getVbRemainingToOwn, collectVbs_sort hN hstats (hord.perm_vbRange hN hnode)]
  refine congrArg some (List.filter_congr fun vb hvb => ?_)
  obtain ⟨st, hst⟩ := exists_stat hN hstats hvb
  simp only [statsNameConsumer, hst, Option.any_some, bne, Bool.not_and, Bool.and_comm]

/-- `getVbRemainingToGiveUp` lists, in ascending order, the vbuckets whose stats name this
consumer's worker, on any node, and that this consumer should not own. -/
theorem getVbRemainingToGiveUp_eq {ord : List UInt16} (hord : c.vbProcessingStats.IsOrder ord) :
    c.getVbRemainingToGiveUp ord = some ((vbRange N).filter fun vb =>
      c.statsNameWorker vb && !c.checkIfCurrentConsumerShouldOwnVb vb) := by
  rw [getVbRemainingToGiveUp, collectVbs_sort hN hstats (hord.perm_vbRange hN hstats)]
  refine congrArg some (List.filter_congr fun vb hvb => ?_)
  obtain ⟨st, hst⟩ := exists_stat hN hstats hvb
  simp only [statsNameWorker, hst, Option.any_some, Bool.beq_comm]

end Plan

/-- With stats that name this consumer's worker on another node, for a vbucket that the plan
gives elsewhere, the vbucket is listed for give-up although the stats do not name this
consumer: `getVbRemainingToGiveUp` compares the worker name only. -/
theorem getVbRemainingToGiveUp_other_node :
    let c : Consumer := ⟨"u2", "worker_app_0", "b:8096", "app", "/b",
      (∅ : GoMap UInt16 String).insert 0 "a:8096", ∅,
      (∅ : GoMap UInt16 VbStat).insert 0 ⟨"u1", "worker_app_0", "a:8096", "running"⟩⟩
    c.getVbRemainingToGiveUp [0] = some [0] ∧ c.getVbRemainingToOwn [0] = some [] ∧
      c.statsNameConsumer 0 = false ∧ c.checkIfCurrentConsumerShouldOwnVb 0 = false := by
  refine ⟨?_, ?_, by decide, by decide⟩ <;>
    simp [getVbRemainingToGiveUp, getVbRemainingToOwn, collectVbs, sortVbs,
      checkIfCurrentConsumerShouldOwnVb, checkIfConsumerShouldOwnVb, GoMap.index,
      GoMap.lookup_insert_eq, -AList.insert_empty, show (default : List UInt16) = [] from rfl]

/-! ## The vbuckets a consumer handles -/

/-- A consumer whose producer built the worker map from the node map, for the consumer's own
address, lists its vbuckets the same way twice: `getVbsOwned`, which filters the node map by
both ownership checks and sorts, gives back `vbsToHandle`, the worker map's list, in every
visiting order; that list ascends, so it has no repetitions. -/
theorem getVbsOwned_eq_vbsToHandle (appName : String) (w : Nat) (hw : 0 < w) (ordW : List UInt16)
    (hordW : c.vbEventingNodeAssignMap.IsOrder ordW)
    (hW : initWorkerVbMap appName w c.hostPortAddr c.vbEventingNodeAssignMap ordW = some c.workerVbMap)
    (ord : List UInt16) (hord : c.vbEventingNodeAssignMap.IsOrder ord) :
    c.getVbsOwned ord = c.vbsToHandle ∧ c.vbsToHandle.Sorted (· < ·) := by
  obtain ⟨hsorted, hsub⟩ := sorted_of_initWorkerVbMap hw hordW hW c.workerName
  refine ⟨sortVbs_eq ((List.perm_ext_iff_of_nodup (hord.nodup.filter _) hsorted.nodup).mpr
    fun vb => ?_) hsorted, hsorted⟩
  simp only [List.mem_filter, Bool.and_eq_true, beq_iff_eq, checkIfCurrentNodeShouldOwnVb_eq_true,
    checkIfConsumerShouldOwnVb_eq_true]
  refine ⟨fun h => h.2.2, fun h => ?_⟩
  have hl := mem_nodeVbs.mp (hsub h)
  exact ⟨(hord.mem_iff vb).mpr (AList.lookup_isSome.mp (by rw [hl]; rfl)),
    ⟨GoMap.index_of_lookup hl, GoMap.index_of_lookup hl⟩, h⟩

/-- Two vbuckets on one node with one worker. -/
theorem getVbsOwned_eq_vbsToHandle_two_vbs :
    let M : GoMap UInt16 String := ((∅ : GoMap UInt16 String).insert 0 "a").insert 1 "a"
    let c : Consumer := ⟨"u", Producer.workerName "app" 0, "a", "app", "/a", M,
      (initWorkerVbMap "app" (1 : Nat) "a" M [0, 1]).getD ∅, ∅⟩
    c.getVbsOwned [1, 0] = c.vbsToHandle ∧ c.vbsToHandle.Sorted (· < ·) := by
  intro M c
  obtain ⟨W, hW, -⟩ := initWorkerVbMap_lookup "app" "a" (show 0 < 1 by decide)
    (show M.IsOrder [0, 1] by decide)
  exact c.getVbsOwned_eq_vbsToHandle "app" 1 (by decide) [0, 1] (by decide)
    (show initWorkerVbMap "app" (1 : Nat) "a" M [0, 1] = some ((initWorkerVbMap "app" (1 : Nat) "a" M [0, 1]).getD ∅)
      by rw [hW]; rfl) [1, 0] (by decide)

/-! ## One claimant per vbucket -/

/-- Finding the only element of `l` that passes `p`. -/
theorem find?_eq_some_of_unique {α : Type} {p : α → Bool} {x : α} :
    ∀ {l : List α}, x ∈ l → p x → (∀ y ∈ l, p y → y = x) → l.find? p = some x
  | y :: l, hx, hpx, huniq => by
      by_cases hy : p y
      · rw [List.find?_cons_of_pos _ hy, huniq y (.head _) hy]
      · rw [List.find?_cons_of_neg _ hy]
        exact find?_eq_some_of_unique ((List.mem_cons.mp hx).resolve_left (by rintro rfl; exact hy hpx))
          hpx fun z hz => huniq z (.tail _ hz)

/-- When every node builds its worker map from the one node map, each vbucket below `N` has
exactly one claimant: the worker `wn` on node `a` passes both ownership checks, no other
(node, worker) pair does, and `getConsumerForGivenVbucket` returns `wn` on node `a` and `""`
on every other node, in every visiting order. -/
theorem exactly_one_claimant (appName : String) (L : List String) (N : Nat) (hN : N ≤ 2 ^ 16)
    (w : Nat) (hw : 0 < w) (M : GoMap UInt16 String) (hM : vbEventingNodeAssign N L = some M)
    (ords : String → List UInt16) (hords : ∀ a ∈ L, M.IsOrder (ords a))
    (W : String → GoMap String (List UInt16))
    (hW : ∀ a ∈ L, initWorkerVbMap appName w a M (ords a) = some (W a))
    (vb : UInt16) (hvb : vb.toNat < N) :
    ∃ a wn, a ∈ L ∧
      (∀ c : Consumer, c.RunsOn M W a → c.workerName = wn →
        c.checkIfCurrentNodeShouldOwnVb vb ∧ c.checkIfConsumerShouldOwnVb vb wn) ∧
      (∀ a' ∈ L, ∀ wn' (c : Consumer), c.RunsOn M W a' → c.workerName = wn' →
        c.checkIfCurrentNodeShouldOwnVb vb → c.checkIfConsumerShouldOwnVb vb wn' →
          a' = a ∧ wn' = wn) ∧
      (∀ a' ∈ L, ∀ c : Consumer, c.RunsOn M W a' → ∀ ord, c.workerVbMap.IsOrder ord →
        c.getConsumerForGivenVbucket ord vb = if a' = a then wn else "") := by
  obtain ⟨a, haL, hlook⟩ := (lookup_of_vbEventingNodeAssign hN hM vb).1 hvb
  obtain ⟨i, ⟨hi, hvi⟩, huniq⟩ := existsUnique_of_initWorkerVbMap hw (hords a haL) (hW a haL)
    (mem_nodeVbs.mpr hlook)
  have hworker : ∀ wn, vb ∈ (W a).index wn → wn = Producer.workerName appName i := fun wn h => by
    obtain ⟨j, hj, rfl, -⟩ :=
      key_of_initWorkerVbMap hw (hords a haL) (hW a haL) (GoMap.mem_of_mem_index h)
    rw [huniq j ⟨hj, h⟩]
  have hother : ∀ a' ∈ L, a' ≠ a → ∀ wn, vb ∉ (W a').index wn := fun a' ha' hne wn h => by
    have := mem_nodeVbs.mp ((sorted_of_initWorkerVbMap hw (hords a' ha') (hW a' ha') wn).2 h)
    exact hne (Option.some.inj (hlook.symm.trans this)).symm
  refine ⟨a, Producer.workerName appName i, haL, ?_, ?_, ?_⟩
  · rintro c ⟨hca, hcM, hcW⟩ -
    simp only [checkIfCurrentNodeShouldOwnVb_eq_true, checkIfConsumerShouldOwnVb_eq_true, hcM,
      hcW, hca, GoMap.index_of_lookup hlook, hvi, and_self]
  · rintro a' ha' wn' c ⟨hca, hcM, hcW⟩ - hn hc
    rw [checkIfCurrentNodeShouldOwnVb_eq_true, hcM, GoMap.index_of_lookup hlook, hca] at hn
    subst hn
    rw [checkIfConsumerShouldOwnVb_eq_true, hcW] at hc
    exact ⟨rfl, hworker wn' hc⟩
  · rintro a' ha' c ⟨-, -, hcW⟩ ord hord
    rw [hcW] at hord
    unfold getConsumerForGivenVbucket
    split_ifs with h
    · subst h
      rw [find?_eq_some_of_unique ((hord.mem_iff _).mpr (GoMap.mem_of_mem_index hvi))
        (by simpa [hcW] using hvi) fun y _ hy => hworker y (by simpa [hcW] using hy)]
      rfl
    · rw [List.find?_eq_none.mpr fun wn _ hwn => hother a' ha' h wn (by simpa [hcW] using hwn)]
      rfl

theorem exactly_one_claimant_two_nodes :
    let M := (vbEventingNodeAssign 4 ["a", "b"]).getD ∅
    let W := fun a => (initWorkerVbMap "app" (2 : Nat) a M M.keys).getD ∅
    ∃ a wn, a ∈ ["a", "b"] ∧ ∀ c : Consumer, c.RunsOn M W a → c.workerName = wn →
      c.checkIfCurrentNodeShouldOwnVb 0 ∧ c.checkIfConsumerShouldOwnVb 0 wn := by
  intro M W
  have hM : vbEventingNodeAssign 4 ["a", "b"] = some M := by
    obtain ⟨M', h, -⟩ := vbEventingNodeAssign_lookup (show ["a", "b"] ≠ [] by decide)
      (show 4 ≤ 2 ^ 16 by decide)
    simp only [M, h, Option.getD_some]
  have hW : ∀ a ∈ ["a", "b"], initWorkerVbMap "app" (2 : Nat) a M M.keys = some (W a) := by
    intro a _
    obtain ⟨W', h, -⟩ := initWorkerVbMap_lookup "app" a (show 0 < 2 by decide) (List.Perm.refl M.keys)
    simp only [W, h, Option.getD_some]
  exact (exactly_one_claimant "app" ["a", "b"] 4 (by decide) 2 (by decide) M hM
    (fun _ => M.keys) (fun _ _ => List.Perm.refl _) W hW 0 (by decide)).imp
    fun _ => Exists.imp fun _ h => ⟨h.1, h.2.1⟩

end Consumer

end Eventing
