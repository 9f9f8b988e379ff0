import Eventing.Producer.Depcfg
import Eventing.Consumer.Ownership

/-! # Handing a rebalance pass out to routines

`vbsStateUpdate` lists the vbuckets this consumer still has to take over and to
give up, and hands each list to as many routines as `parseDepcfg` read from the
settings, `vb_ownership_takeover_routine_count` and
`vb_ownership_giveup_routine_count`. `util.VbucketDistribution` splits a list
into that many parts, a `sync.WaitGroup` counts the routines started, and each
routine works through its part. The take-over side repeats its pass from the
label `retryStreamUpdate` for as long as the rebalance is on and vbuckets remain
to be taken over. `parseDepcfg` checks the worker count but neither routine
count, and a count of zero starts no routine: the loop then never ends.

## Implementation notes

`util.VbucketDistribution` is not among the sources: it is an argument `dist`.
The routines of a pass run concurrently; here they run one after the other,
which the results below do not depend on, since they concern passes that start
no routine. Call `n` of `getVbRemainingToOwn` in the loop visits the node map
in its own order `ords n`.
-/

namespace Eventing.Consumer

/-- `wg.Add(delta)` on a `sync.WaitGroup` whose counter is `counter`: a negative counter
panics. -/
def waitGroupAdd (counter delta : Int) : Option Int :=
  if counter + delta < 0 then none else some (counter + delta)

/-- `wg.Add(count)`, then `for i := 0; i < count; i++` a routine on `vbsDistribution[i]`: the
parts the routines get, `none` on a panic. -/
def startRoutines (vbsDistribution : List (List UInt16)) (count : Int) :
    Option (List (List UInt16)) := do
  let _ ← waitGroupAdd 0 count
  (List.range count.toNat).mapM fun i => vbsDistribution[i]?

/-- The routines of `vbGiveUpRoutine`: none when there is nothing to give up. -/
def giveUpRoutines (dist : List UInt16 → Int → List (List UInt16)) (vbOwnershipGiveUpRoutineCount : Int)
    (vbsRemainingToGiveUp : List UInt16) : Option (List (List UInt16)) :=
  if vbsRemainingToGiveUp.isEmpty then some []
  else startRoutines (dist vbsRemainingToGiveUp vbOwnershipGiveUpRoutineCount) vbOwnershipGiveUpRoutineCount

/-- One pass of the take-over routines: each takes over the vbuckets of its part in order. -/
def takeoverPass (takeover : Consumer → UInt16 → Consumer) (routines : List (List UInt16))
    (c : Consumer) : Consumer :=
  routines.foldl (fun c part => part.foldl takeover c) c

/-- The `retryStreamUpdate` loop of `vbsStateUpdate`, for at most `fuel` passes: start the
routines on the vbuckets still to own, let them take over, and, while the rebalance is on,
list the vbuckets still to own again and repeat when some remain. `none` on a panic or when the
fuel runs out. -/
def retryStreamUpdate (dist : List UInt16 → Int → List (List UInt16))
    (takeover : Consumer → UInt16 → Consumer) (vbOwnershipTakeoverRoutineCount : Int)
    (ords : Nat → List UInt16) (isRebalanceOngoing : Bool) :
    Nat → Consumer → List UInt16 → Option Consumer
  | 0, _, _ => none
  | fuel + 1, c, vbsRemainingToOwn => do
    let routines ← startRoutines (dist vbsRemainingToOwn vbOwnershipTakeoverRoutineCount)
      vbOwnershipTakeoverRoutineCount
    let c := takeoverPass takeover routines c
    if !isRebalanceOngoing then return c
    let vbsRemainingToOwn ← c.getVbRemainingToOwn (ords fuel)
    if vbsRemainingToOwn.isEmpty then return c
    retryStreamUpdate dist takeover vbOwnershipTakeoverRoutineCount ords isRebalanceOngoing fuel c
      vbsRemainingToOwn

/-! ## Starting the routines -/

/-- A count of zero starts no routine, whatever the distribution. -/
@[simp] theorem startRoutines_zero (d : List (List UInt16)) : startRoutines d 0 = some [] := rfl

/-- A negative count panics in `wg.Add`. -/
theorem startRoutines_of_neg (d : List (List UInt16)) {count : Int} (h : count < 0) :
    startRoutines d count = none := by
  simp [startRoutines, waitGroupAdd, h]

/-- A distribution into `count` parts hands each part to its own routine. -/
theorem startRoutines_of_length (d : List (List UInt16)) {count : Int} (h : 0 ≤ count)
    (hd : d.length = count.toNat) : startRoutines d count = some d := by
  simp only [startRoutines, waitGroupAdd, if_neg (by omega : ¬(0 + count < 0)), Option.bind_eq_bind,
    Option.some_bind, ← hd, mapM_getElem?_range]

/-! ## The take-over loop -/

variable (c : Consumer)

/-- The loop of `collectVbs` keeps, in visiting order, the vbuckets whose stats pass the test. -/
theorem collectVbs_eq_some {stats : GoMap UInt16 VbStat} {test : UInt16 → VbStat → Bool} :
    ∀ {ord acc l : List UInt16}, ord.foldlM (fun vbs vb => (stats.lookup vb).map fun st =>
        if test vb st then vbs ++ [vb] else vbs) acc = some l →
      l = acc ++ ord.filter fun vb => (stats.lookup vb).any (test vb)
  | [], acc, l, h => by simpa using h.symm
  | vb :: ord, acc, l, h => by
    simp only [List.foldlM_cons, Option.bind_eq_bind] at h
    cases hst : stats.lookup vb with
    | none => simp [hst] at h
    | some st =>
      simp only [hst, Option.map_some', Option.some_bind] at h
      rw [collectVbs_eq_some h, List.filter_cons, hst, Option.any_some]
      split <;> simp

/-- Whether vbuckets remain to be taken over does not depend on the visiting order. -/
theorem getVbRemainingToOwn_length {ord ord' l l' : List UInt16}
    (hord : c.vbEventingNodeAssignMap.IsOrder ord) (hord' : c.vbEventingNodeAssignMap.IsOrder ord')
    (h : c.getVbRemainingToOwn ord = some l) (h' : c.getVbRemainingToOwn ord' = some l') :
    l.length = l'.length := by
  simp only [getVbRemainingToOwn, collectVbs, Option.map_eq_some'] at h h'
  obtain ⟨x, hx, rfl⟩ := h
  obtain ⟨x', hx', rfl⟩ := h'
  rw [sortVbs, sortVbs, List.length_mergeSort, List.length_mergeSort, collectVbs_eq_some hx,
    collectVbs_eq_some hx', List.nil_append, List.nil_append]
  exact ((hord.trans hord'.symm).filter _).length_eq

/-- With a take-over count of zero, a consumer with a vbucket to own never leaves the loop:
no routine starts, nothing is taken over, and every new listing finds the same vbuckets. -/
theorem retryStreamUpdate_zero_count (dist : List UInt16 → Int → List (List UInt16))
    (takeover : Consumer → UInt16 → Consumer) (ords : Nat → List UInt16)
    (hords : ∀ n, c.vbEventingNodeAssignMap.IsOrder (ords n)) {ord l : List UInt16}
    (hord : c.vbEventingNodeAssignMap.IsOrder ord) (h : c.getVbRemainingToOwn ord = some l)
    (hl : l ≠ []) : ∀ fuel vbs, retryStreamUpdate dist takeover 0 ords true fuel c vbs = none := by
  intro fuel
  induction fuel with
  | zero => intro _; rfl
  | succ n ih =>
    intro vbs
    simp only [retryStreamUpdate, startRoutines_zero, takeoverPass, List.foldl_nil, Option.bind_eq_bind,
      Option.some_bind, Bool.not_true]
    cases hr : c.getVbRemainingToOwn (ords n) with
    | none => rfl
    | some r =>
      have hr0 : r ≠ [] := fun h0 => hl (List.eq_nil_of_length_eq_zero
        ((c.getVbRemainingToOwn_length hord (hords n) h hr).trans (by rw [h0]; rfl)))
      simp [hr0, ih]

/-! ## Routine counts the settings allow -/

/-- `parseDepcfg` accepts a take-over routine count of `0`, and a consumer with a vbucket to own
then loops in `retryStreamUpdate` for ever, while a give-up count of `0` hands the vbuckets to
give up to no routine. -/
theorem parseDepcfg_zero_routine_count (p : Producer) :
    let S := ((((∅ : GoMap String JsonValue).insert "rbacuser" (.string "u")).insert "rbacpass"
      (.string "p")).insert "log_level" (.string "INFO")).insert "vb_ownership_takeover_routine_count"
      (.number 0)
    let env : DepcfgEnv := ⟨"app", "/e", "8091", ("10.0.0.1", none), ([], none)⟩
    let M : GoMap UInt16 String := (∅ : GoMap UInt16 String).insert 0 "a"
    let c : Consumer := ⟨"u", "worker_app_0", "a", "app", "/e", M,
      (∅ : GoMap String (List UInt16)).insert "worker_app_0" [0],
      (∅ : GoMap UInt16 VbStat).insert 0 ⟨"", "", "", "stopped"⟩⟩
    (∃ run, parseDepcfg env S p = some run ∧ run.err = none ∧
      run.producer.vbOwnershipTakeoverRoutineCount = 0) ∧
    c.getVbRemainingToOwn [0] = some [0] ∧
    (∀ dist takeover fuel, retryStreamUpdate dist takeover 0 (fun _ => [0]) true fuel c [0] = none) ∧
    ∀ dist, giveUpRoutines dist 0 [0] = some [] := by
  intro S env M c
  have hown : c.getVbRemainingToOwn [0] = some [0] := by
    simp [c, getVbRemainingToOwn, collectVbs, sortVbs, checkIfCurrentConsumerShouldOwnVb,
      checkIfConsumerShouldOwnVb, GoMap.index, GoMap.lookup_insert_eq, -AList.insert_empty]
  refine ⟨?_, hown, fun dist takeover fuel => c.retryStreamUpdate_zero_count dist takeover _
    (fun _ => by decide) (by decide) hown (List.cons_ne_nil 0 []) fuel [0], fun dist => rfl⟩
  simp [S, env, parseDepcfg, applyFields, settingsBeforeRbac, settingsAfterRbac, settingsAfterLogDir,
    SettingField.ofConv, appLogDir, finishParseDepcfg, GoMap.lookup_insert_eq, -AList.insert_empty,
    AList.lookup_empty, JsonValue.asString]

end Eventing.Consumer
