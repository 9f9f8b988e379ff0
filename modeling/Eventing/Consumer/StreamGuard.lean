import Eventing.Go

/-! # The stream request guard under concurrency

Concurrent calls of `updateVbOwnerAndStartDCPStream` on one consumer share
the set `vbStreamRequested`. Each call runs two sections under
`vbsStreamRRWMutex`: the guard, which returns nil when the vbucket is already
in the set and inserts it otherwise, and, after a failed
`dcpRequestStreamHandle`, the cleanup, which deletes the vbucket again. Other
code (the stream close path) may delete a vbucket from the set at any time.

## Implementation notes

A locked section is one step. A call is a vbucket and a position in the body;
the steps of a call after a successful stream request do not touch the set,
so `succeeded` is final for the guard. A run is a list of steps, applied in
order; a step that is not enabled in the state it meets ends the run with
`none`.
-/

namespace Eventing.StreamGuard

/-- Where a call is, as far as the guard is concerned. -/
inductive CallPc
  | start
  | guarded
  | inHandle
  | failed
  | succeeded
  | returnedNil
  | returnedErr
  deriving DecidableEq, Repr

/-- The call has inserted its vbucket and not yet deleted it. -/
def CallPc.holdsMark : CallPc → Bool
  | start => false
  | guarded => true
  | inHandle => true
  | failed => true
  | succeeded => true
  | returnedNil => false
  | returnedErr => false

/-- The consumer's `vbStreamRequested` and the calls in flight. -/
structure GuardState where
  vbStreamRequested : GoMap UInt16 Unit
  calls : List (UInt16 × CallPc)
  deriving DecidableEq

/-- One step of one call, or of the other code. -/
inductive GuardAction
  | lockAndCheck (i : Nat)
  | requestStream (i : Nat)
  | streamOk (i : Nat)
  | streamErr (i : Nat)
  | cleanup (i : Nat)
  | removeByOtherCode (vb : UInt16)
  deriving DecidableEq, Repr

namespace GuardState

/-- Move call `i` to `pc`. -/
def setPc (s : GuardState) (i : Nat) (vb : UInt16) (pc : CallPc) : GuardState :=
  { s with calls := s.calls.set i (vb, pc) }

/-- Call `i` on `vb` moves from `pc` to `pc'` and changes nothing else. -/
def advance (s : GuardState) (i : Nat) (pc pc' : CallPc) : Option GuardState :=
  match s.calls[i]? with
  | some (vb, q) => if q = pc then some (s.setPc i vb pc') else none
  | none => none

/-- One step. The guard and the cleanup are the two sections under `vbsStreamRRWMutex`. -/
def step (s : GuardState) : GuardAction → Option GuardState
  | .lockAndCheck i =>
      match s.calls[i]? with
      | some (vb, .start) =>
          if vb ∈ s.vbStreamRequested then some (s.setPc i vb .returnedNil)
          else some { s.setPc i vb .guarded with
            vbStreamRequested := s.vbStreamRequested.insert vb () }
      | _ => none
  | .requestStream i => s.advance i .guarded .inHandle
  | .streamOk i => s.advance i .inHandle .succeeded
  | .streamErr i => s.advance i .inHandle .failed
  | .cleanup i =>
      match s.calls[i]? with
      | some (vb, .failed) =>
          some { s.setPc i vb .returnedErr with
            vbStreamRequested := s.vbStreamRequested.erase vb }
      | _ => none
  | .removeByOtherCode vb => some { s with vbStreamRequested := s.vbStreamRequested.erase vb }

/-- The steps `as`, in order. -/
def run (s : GuardState) (as : List GuardAction) : Option GuardState :=
  as.foldlM step s

/-- The number of calls on `vb` that hold its mark. -/
def holders (s : GuardState) (vb : UInt16) : Nat :=
  s.calls.countP fun c => decide (c.1 = vb) && c.2.holdsMark

end GuardState

/-- Two different positions of a list whose elements pass `p` count twice. -/
theorem two_le_countP {α : Type} {p : α → Bool} :
    ∀ {l : List α} {i j : Nat} {a b : α}, i ≠ j → l[i]? = some a → l[j]? = some b →
      p a = true → p b = true → 2 ≤ l.countP p
  | _ :: _, 0, 0, _, _, hij, _, _, _, _ => absurd rfl hij
  | x :: l, 0, j + 1, a, b, _, hi, hj, pa, pb => by
      obtain rfl : x = a := by simpa using hi
      have := List.countP_pos_iff.mpr ⟨b, List.mem_iff_getElem?.mpr ⟨j, by simpa using hj⟩, pb⟩
      simp only [List.countP_cons, pa, if_true]
      omega
  | x :: l, i + 1, 0, a, b, _, hi, hj, pa, pb => by
      obtain rfl : x = b := by simpa using hj
      have := List.countP_pos_iff.mpr ⟨a, List.mem_iff_getElem?.mpr ⟨i, by simpa using hi⟩, pa⟩
      simp only [List.countP_cons, pb, if_true]
      omega
  | x :: l, i + 1, j + 1, a, b, hij, hi, hj, pa, pb => by
      have hi' : l[i]? = some a := by simpa using hi
      have hj' : l[j]? = some b := by simpa using hj
      have := two_le_countP (fun h => hij (by omega)) hi' hj' pa pb
      simp only [List.countP_cons]
      omega

namespace GuardState

variable {s s' : GuardState} {i : Nat} {vb vb₀ : UInt16} {pc : CallPc}

/-- Moving call `i` changes the holders of `vb` by what its old and new positions hold. -/
theorem holders_setPc (hi : s.calls[i]? = some (vb₀, pc)) (pc' : CallPc) (vb : UInt16) :
    (s.setPc i vb₀ pc').holders vb + (decide (vb₀ = vb) && pc.holdsMark).toNat =
      s.holders vb + (decide (vb₀ = vb) && pc'.holdsMark).toNat := by
  obtain ⟨hlt, hget⟩ := List.getElem?_eq_some_iff.mp hi
  have hle := List.boole_getElem_le_countP (fun c : UInt16 × CallPc =>
    decide (c.1 = vb) && c.2.holdsMark) s.calls i hlt
  simp only [holders, setPc, List.countP_set _ _ _ _ hlt, hget] at hle ⊢
  generalize decide (vb₀ = vb) = d at hle ⊢
  cases d <;> cases hp : pc.holdsMark <;> cases hp' : pc'.holdsMark <;>
    simp only [hp, hp', Bool.and_true, Bool.and_false, Bool.false_and, Bool.true_and,
      Bool.false_eq_true, if_true, if_false, Bool.toNat_true, Bool.toNat_false] at hle ⊢ <;> omega

theorem holders_setPc_ne (hi : s.calls[i]? = some (vb₀, pc)) (pc' : CallPc) {vb : UInt16}
    (hv : vb₀ ≠ vb) : (s.setPc i vb₀ pc').holders vb = s.holders vb := by
  simpa [hv] using holders_setPc hi pc' vb

theorem holders_setPc_of_holdsMark (hi : s.calls[i]? = some (vb₀, pc)) {pc' : CallPc}
    (hpc : pc.holdsMark = pc'.holdsMark) (vb : UInt16) :
    (s.setPc i vb₀ pc').holders vb = s.holders vb := by
  have := holders_setPc hi pc' vb
  rw [hpc] at this
  omega

/-- The guard's invariant for `vb`: a call holds the mark of `vb` only while `vb` is in the set,
and at most one call does. -/
def MarkInv (s : GuardState) (vb : UInt16) : Prop :=
  s.holders vb ≤ if vb ∈ s.vbStreamRequested then 1 else 0

theorem markInv_advance (h : s.MarkInv vb) {p p' : CallPc} (hs : s.advance i p p' = some s')
    (hp : p.holdsMark = p'.holdsMark) : s'.MarkInv vb := by
  unfold advance at hs
  split at hs
  · rename_i vb₀ q hi
    split_ifs at hs with hq
    cases hs
    subst hq
    unfold MarkInv
    rw [holders_setPc_of_holdsMark hi hp]
    exact h
  · cases hs

/-- Every step but a removal of `vb` by other code keeps the invariant of `vb`. -/
theorem markInv_step (h : s.MarkInv vb) {a : GuardAction} (hs : s.step a = some s')
    (ha : a ≠ .removeByOtherCode vb) : s'.MarkInv vb := by
  cases a with
  | lockAndCheck i =>
      simp only [step] at hs
      split at hs
      · rename_i vb₀ hi
        unfold MarkInv at h ⊢
        split_ifs at hs with hmem <;> cases hs
        · rw [holders_setPc_of_holdsMark hi
            (show CallPc.start.holdsMark = CallPc.returnedNil.holdsMark from rfl)]
          exact h
        · change (s.setPc i vb₀ .guarded).holders vb ≤ _
          by_cases hv : vb₀ = vb
          · subst hv
            have hset := holders_setPc hi .guarded vb₀
            simp only [decide_True, CallPc.holdsMark, Bool.and_false, Bool.and_true,
              Bool.toNat_false, Bool.toNat_true, hmem, if_false, AList.mem_insert, true_or,
              if_true] at hset h ⊢
            omega
          · rw [holders_setPc_ne hi _ hv]
            simpa only [AList.mem_insert, Ne.symm hv, false_or] using h
      · cases hs
  | requestStream i => exact markInv_advance h (show s.advance i .guarded .inHandle = _ from hs) rfl
  | streamOk i => exact markInv_advance h (show s.advance i .inHandle .succeeded = _ from hs) rfl
  | streamErr i => exact markInv_advance h (show s.advance i .inHandle .failed = _ from hs) rfl
  | cleanup i =>
      simp only [step] at hs
      split at hs
      · rename_i vb₀ hi
        cases hs
        unfold MarkInv at h ⊢
        change (s.setPc i vb₀ .returnedErr).holders vb ≤ _
        by_cases hv : vb₀ = vb
        · subst hv
          have hset := holders_setPc hi .returnedErr vb₀
          simp only [decide_True, CallPc.holdsMark, Bool.and_true, Bool.and_false,
            Bool.toNat_true, Bool.toNat_false, AList.mem_erase, ne_eq, not_true_eq_false,
            false_and, if_false] at hset h ⊢
          split_ifs at h <;> omega
        · rw [holders_setPc_ne hi _ hv]
          simpa only [AList.mem_erase, ne_eq, Ne.symm hv, not_false_eq_true, true_and] using h
      · cases hs
  | removeByOtherCode vb₀ =>
      cases hs
      have hv : vb ≠ vb₀ := fun h => ha (by rw [h])
      simpa only [MarkInv, holders, AList.mem_erase, hv, ne_eq, not_false_eq_true, true_and]
        using h

/-- A run without removals of `vb` by other code keeps the invariant of `vb`. -/
theorem markInv_run (h : s.MarkInv vb) :
    ∀ {as : List GuardAction}, s.run as = some s' → .removeByOtherCode vb ∉ as → s'.MarkInv vb := by
  intro as
  induction as generalizing s with
  | nil =>
      intro hrun _
      cases hrun
      exact h
  | cons a as ih =>
      intro hrun hno
      simp only [run, List.foldlM_cons, Option.bind_eq_bind] at hrun
      obtain ⟨t, ht, hrest⟩ := Option.bind_eq_some.mp hrun
      exact ih (markInv_step h ht fun he => hno (he ▸ List.mem_cons_self _ _)) hrest
        fun hm => hno (List.mem_cons_of_mem _ hm)

/-- Before any call has passed its guard, no call holds a mark. -/
theorem markInv_start (hs : ∀ c ∈ s.calls, c.2 = .start) (vb : UInt16) : s.MarkInv vb := by
  have : s.holders vb = 0 := List.countP_eq_zero.mpr fun c hc => by simp [hs c hc, CallPc.holdsMark]
  simp [MarkInv, this]

/-- Under the invariant, two calls on `vb` that hold its mark are the same call. -/
theorem eq_of_holdsMark (h : s.MarkInv vb) {i j : Nat} {p q : CallPc}
    (hi : s.calls[i]? = some (vb, p)) (hj : s.calls[j]? = some (vb, q))
    (hp : p.holdsMark = true) (hq : q.holdsMark = true) : i = j := by
  by_contra hij
  have := @two_le_countP _ (fun c : UInt16 × CallPc => decide (c.1 = vb) && c.2.holdsMark)
    _ _ _ _ _ hij hi hj (by simp [hp]) (by simp [hq])
  unfold MarkInv holders at h
  split_ifs at h <;> omega

theorem setPc_calls_self {s : GuardState} {i : Nat} {c : UInt16 × CallPc}
    (hi : s.calls[i]? = some c) (vb : UInt16) (pc : CallPc) :
    (s.setPc i vb pc).calls[i]? = some (vb, pc) := by
  obtain ⟨hlt, -⟩ := List.getElem?_eq_some_iff.mp hi
  simp [setPc, hlt]

end GuardState

open GuardState in
/-- Other code removes vbucket `0` while call `0` is inside its request. Call `1` then passes
the guard and enters; call `0`'s request fails and its cleanup deletes the mark of call `1`, so
call `2` enters while call `1` is still inside, and the only removal by other code came before
call `1` entered. -/
theorem run_cleanup_deletes_newer_mark :
    let as : List GuardAction := [.lockAndCheck 0, .requestStream 0, .removeByOtherCode 0,
      .lockAndCheck 1, .requestStream 1, .streamErr 0, .cleanup 0, .lockAndCheck 2,
      .requestStream 2]
    ((GuardState.mk ∅ [(0, .start), (0, .start), (0, .start)]).run as).map GuardState.calls =
        some [(0, .returnedErr), (0, .inHandle), (0, .inHandle)] ∧
      as.count (.removeByOtherCode 0) = 1 ∧
      as.indexOf (.removeByOtherCode 0) < as.indexOf (.requestStream 1) := by
  decide

open GuardState in
/-- The guard, each locked section taken as one step. (1) In a run from calls that have not
started, without removals of `vb` by other code, a call on `vb` about to enter or inside
`dcpRequestStreamHandle` is the only call on `vb` inside it or past a successful request.
(2) A guard that finds `vb` present returns nil and changes nothing else. (3) The cleanup of a
failed request leaves `vb` out of the set as the call returns. -/
theorem streamGuard_one_request (s₀ : GuardState) (hs₀ : ∀ c ∈ s₀.calls, c.2 = .start) :
    (∀ (as : List GuardAction) (s : GuardState) (vb : UInt16), s₀.run as = some s →
      .removeByOtherCode vb ∉ as → ∀ i j : Nat,
      (s.calls[i]? = some (vb, .guarded) ∨ s.calls[i]? = some (vb, .inHandle)) →
      (s.calls[j]? = some (vb, .inHandle) ∨ s.calls[j]? = some (vb, .succeeded)) → i = j) ∧
    (∀ (s : GuardState) (i : Nat) (vb : UInt16), s.calls[i]? = some (vb, .start) → vb ∈ s.vbStreamRequested →
      s.step (.lockAndCheck i) = some (s.setPc i vb .returnedNil)) ∧
    (∀ (s : GuardState) (i : Nat) (vb : UInt16), s.calls[i]? = some (vb, .failed) → ∃ s',
      s.step (.cleanup i) = some s' ∧ vb ∉ s'.vbStreamRequested ∧
        s'.calls[i]? = some (vb, .returnedErr)) := by
  refine ⟨fun as s vb hrun hno i j hi hj => ?_, fun s i vb hi hmem => ?_, fun s i vb hi => ?_⟩
  · have hinv := markInv_run (markInv_start hs₀ vb) hrun hno
    rcases hi with hi | hi <;> rcases hj with hj | hj <;> exact eq_of_holdsMark hinv hi hj rfl rfl
  · simp [step, hi, hmem]
  · exact ⟨{ s.setPc i vb .returnedErr with vbStreamRequested := s.vbStreamRequested.erase vb },
      by simp only [step, hi], by simp [AList.mem_erase], setPc_calls_self hi _ _⟩

theorem streamGuard_one_request_two_calls :
    (∀ c ∈ [((0 : UInt16), CallPc.start), (0, .start)], c.2 = .start) ∧
      ∀ (as : List GuardAction) (s : GuardState) (vb : UInt16),
        (GuardState.mk ∅ [(0, .start), (0, .start)]).run as = some s →
        .removeByOtherCode vb ∉ as → ∀ i j : Nat,
          (s.calls[i]? = some (vb, .guarded) ∨ s.calls[i]? = some (vb, .inHandle)) →
          (s.calls[j]? = some (vb, .inHandle) ∨ s.calls[j]? = some (vb, .succeeded)) → i = j :=
  ⟨by decide, (streamGuard_one_request ⟨∅, [(0, .start), (0, .start)]⟩ (by decide)).1⟩

end Eventing.StreamGuard
