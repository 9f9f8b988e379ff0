import Eventing.Consumer.Takeover
import Mathlib.Logic.Function.Basic

/-! # Handing a vbucket over between consumers

During a rebalance every consumer of the cluster runs its give-up routine and its take-over
routines at once, and they meet only in the vbucket's checkpoint blob in the metadata bucket.
The owner's give-up routine closes its DCP stream and writes the checkpoint of
`updateCheckpoint`: stream stopped, owner fields cleared, previous-owner fields naming itself.
The `DCP_STREAMEND` that answers a successful close flushes the blob once more, the stream
stopped. A take-over call of another consumer reads the blob; when its switch lets it, it
requests its own stream with the copy it read, and the stream request records it in the blob
and pulls the previous owner's timer directory when that owner ran on another node.

This module runs one vbucket under every interleaving of these steps, the read of a take-over
call and its stream request being two steps, and the read, the stream close and the checkpoint
of a give-up three. When only the planned owner takes the vbucket over and every
`DcpCloseStream` of a give-up succeeds, no two live consumers ever stream it at once
(`run_streams_exclusive`), and a nil from the planned owner's `reclaimVbOwnership` certifies the
vbucket to it (`reclaimVbOwnership_exclusive`). Two consumers that both take it over can both
stream it, one of them holding a nil from `reclaimVbOwnership` (`reclaimVbOwnership_race`). The
give-up writes its checkpoint whatever the close answered, and after a failed close the next
take-over opens a second stream (`giveUp_failed_close_two_streams`).

## Implementation notes

`World` holds the blob and what each consumer, numbered by `Nat` with identities `cs`, holds for
the vbucket. Each consumer has one take-over call and one give-up of the vbucket in flight at a
time, its routines': the call's read keeps the copy `pending` for its stream request, and the
give-up's phase records how far it got. The actions `takeover` and `giveUp` are a call and a
give-up that no other step interrupts, as `reclaimVbOwnership` makes its call; they leave the
routines' slots alone. The oracle `IsEventingNodeAlive` answers `alive` for the owner the blob
names. A call that opens the stream writes the blob, and the consumer's stats then mirror the
blob written, as the stats are the blob's write-behind mirror (outside the sources). The give-up
reads the consumer's current stats where the routine reads the copy `vbsStateUpdate` took: only
the consumer's own give-up and take-over steps change them. Its last part, the polling loop,
only reads the blob. The stream close path may delete the consumer's mark from
`vbStreamRequested` at any time, and a `DCP_STREAMEND` arrives at any time after the close it
answers.
-/

namespace Eventing

/-- The four `updateVbStat` calls that copy a blob's ownership fields into the stats. -/
def VbBlob.stat (b : VbBlob) : VbStat :=
  ⟨b.nodeUuid, b.assignedWorker, b.currentVbOwner, b.dcpStreamStatus⟩

/-- The stats the first branch of the give-up routine leaves: owner fields empty, stream
stopped. -/
def clearedStat : VbStat := ⟨"", "", "", dcpStreamStopped⟩

/-- The blob records `c` as the owner of a running stream. -/
def VbBlob.NamesOwner (b : VbBlob) (c : Consumer) : Prop :=
  b.dcpStreamStatus = dcpStreamRunning ∧ b.nodeUuid = c.uuid ∧ b.assignedWorker = c.workerName ∧
    b.currentVbOwner = c.hostPortAddr

/-- The stats name `c`: its node and its worker. -/
def VbStat.NamesConsumer (st : VbStat) (c : Consumer) : Prop :=
  st.nodeUuid = c.uuid ∧ st.assignedWorker = c.workerName

/-- Modelled from the spec: on the `DCP_STREAMEND` that answers a stream close, the consumer
flushes the checkpoint blob with the stream stopped (absent from the sources). -/
def VbBlob.streamEnded (b : VbBlob) : VbBlob := { b with dcpStreamStatus := dcpStreamStopped }

namespace Consumer

variable (c : Consumer)

/-- `updateCheckpoint`: the blob it writes back for `b`, owner fields cleared, stream stopped,
previous-owner fields naming this consumer. -/
def checkpointBlob (b : VbBlob) : VbBlob :=
  { b with
    assignedWorker := ""
    currentVbOwner := ""
    dcpStreamStatus := dcpStreamStopped
    nodeUuid := ""
    previousAssignedWorker := c.workerName
    previousEventingDir := c.eventingDir
    previousNodeUUID := c.uuid
    previousVbOwner := c.hostPortAddr }

@[simp] theorem checkpointBlob_stat (b : VbBlob) : (c.checkpointBlob b).stat = clearedStat := rfl

end Consumer

namespace Handoff

/-- The branch the give-up routine takes for the vbucket: the blob records another node's
running stream, the stats name this consumer, or neither. -/
inductive GiveUpBranch
  | otherNode
  | owner
  | skip
  deriving DecidableEq, Repr

/-- How far a consumer's give-up of the vbucket got: not started or done, past the blob read on
a branch, or past the stream close with `updateCheckpoint` to come. -/
inductive GiveUpPhase
  | idle
  | decided (br : GiveUpBranch)
  | checkpointDue
  deriving DecidableEq, Repr

/-- What one consumer holds for the vbucket: its stats, its marks in `vbStreamRequested` and
`vbsStreamClosed`, its DCP stream, the timer transfers it made, the copy of the blob its take-over
call read for the stream request, how far its give-up got, and whether a `DCP_STREAMEND` is on
its way. -/
structure Holding where
  stat : VbStat
  vbStreamRequested : Bool
  vbsStreamClosed : Bool
  streamOpen : Bool
  transfers : List TimerTransfer
  pending : Option VbBlob
  giveUp : GiveUpPhase
  streamEndPending : Bool
  deriving DecidableEq, Repr

/-- The vbucket's blob in the metadata bucket and what each consumer holds for it. -/
structure World where
  blob : VbBlob
  holding : Nat → Holding

/-- The world with consumer `i`'s holding `h` replaced by `f h`. -/
def World.modify (w : World) (i : Nat) (f : Holding → Holding) : World :=
  ⟨w.blob, Function.update w.holding i (f (w.holding i))⟩

/-- A step of consumer `i`: a whole take-over call, with the answers of the stream request, the
RPC dial and the record copy, or its read and its stream request; a whole give-up, with the
answer of `DcpCloseStream`, or its read, its stream close and its checkpoint; the stream close
path deleting its mark from `vbStreamRequested`; or the `DCP_STREAMEND` of a closed stream. -/
inductive Action
  | takeover (i : Nat) (streamOk dialOk copyOk : Bool)
  | takeoverRead (i : Nat)
  | takeoverFinish (i : Nat) (streamOk dialOk copyOk : Bool)
  | giveUp (i : Nat) (closeOk : Bool)
  | giveUpRead (i : Nat)
  | giveUpClose (i : Nat) (closeOk : Bool)
  | checkpoint (i : Nat)
  | clearRequested (i : Nat)
  | streamEnd (i : Nat)
  deriving DecidableEq, Repr

variable (cs : Nat → Consumer) (alive : String → String → Bool) (vb : UInt16)

/-- Consumer `i` runs on a node the oracle reports alive. -/
def Live (i : Nat) : Prop := alive (cs i).hostPortAddr (cs i).uuid = true

/-- What consumer `i` hands to a take-over call: the blob and its own marks, stream and
transfers. -/
def callState (w : World) (i : Nat) : TakeoverState :=
  ⟨w.blob, (w.holding i).vbStreamRequested, (w.holding i).streamOpen, (w.holding i).transfers⟩

/-- The world after a take-over call of consumer `i` that left `s`: a call that changed anything
opened the stream and wrote the blob, and the stats mirror the blob written. -/
def afterCall (w : World) (i : Nat) (s : TakeoverState) : World :=
  if s = callState w i then w
  else ⟨s.blob, Function.update w.holding i { w.holding i with
    stat := s.blob.stat
    vbStreamRequested := s.vbStreamRequested
    streamOpen := s.streamOpen
    transfers := s.transfers }⟩

/-- The answers to a take-over call that read `b`: the oracle's for the owner `b` names, then
those of the stream request, the dial and the copy. -/
def outcomes (b : VbBlob) (streamOk dialOk copyOk : Bool) : Outcomes :=
  ⟨alive b.currentVbOwner b.nodeUuid, streamOk, dialOk, copyOk⟩

/-- A take-over call of consumer `i` that no other step interrupts. -/
def takeoverStep (i : Nat) (streamOk dialOk copyOk : Bool) (w : World) : World :=
  afterCall w i ((cs i).doVbTakeover (outcomes alive w.blob streamOk dialOk copyOk) vb (callState w i)).1

/-- The blob read and the switch of a take-over call of consumer `i`: the copy it goes on to the
stream request with, if the switch does. -/
def readForTakeover (i : Nat) (w : World) : Option VbBlob :=
  match (cs i).takeoverSwitch (alive w.blob.currentVbOwner w.blob.nodeUuid) vb w.blob with
  | .startStream => some w.blob
  | .returns _ => none

/-- The stream request of a take-over call of consumer `i` that read the copy `b`. -/
def requestStream (i : Nat) (b : VbBlob) (streamOk dialOk copyOk : Bool) (w : World) : World :=
  afterCall w i
    ((cs i).updateVbOwnerAndStartDCPStream (outcomes alive b streamOk dialOk copyOk) vb b (callState w i)).1

/-- The branch of `vbGiveUpRoutine` on the blob `b` it read and the stats `st`. -/
def giveUpBranch (c : Consumer) (b : VbBlob) (st : VbStat) : GiveUpBranch :=
  if b.nodeUuid ≠ c.uuid ∧ b.dcpStreamStatus = dcpStreamRunning then .otherNode
  else if st.nodeUuid = c.uuid ∧ st.assignedWorker = c.workerName then .owner
  else .skip

/-- `DcpCloseStream`, answering `closeOk`; a successful close of an open stream is answered by a
`DCP_STREAMEND` later. -/
def Holding.closeStream (h : Holding) (closeOk : Bool) : Holding :=
  { h with
    streamOpen := h.streamOpen && !closeOk
    streamEndPending := h.streamEndPending || h.streamOpen && closeOk }

/-- The give-up routine from its stream close on, on the branch `br` it took: the close and the
stats cleared when another node runs the stream; the mark in `vbsStreamClosed` and the close when
the stats name this consumer. -/
def closeForGiveUp (br : GiveUpBranch) (closeOk : Bool) (h : Holding) : Holding :=
  match br with
  | .otherNode => { h.closeStream closeOk with stat := clearedStat }
  | .owner => { h.closeStream closeOk with vbsStreamClosed := true }
  | .skip => h

/-- The give-up on branch `br` goes on to `updateCheckpoint` after the close: on the owner
branch, when the vbucket was not yet marked in `vbsStreamClosed`. -/
def checkpointFollows (br : GiveUpBranch) (h : Holding) : Bool := br == .owner && !h.vbsStreamClosed

/-- `updateCheckpoint` by consumer `i`, on the blob it reads again. -/
def updateCheckpoint (i : Nat) (w : World) : World :=
  let b := (cs i).checkpointBlob w.blob
  ⟨b, Function.update w.holding i { w.holding i with stat := b.stat }⟩

/-- The body of `vbGiveUpRoutine` for the vbucket up to its polling loop, no other step
interrupting it. -/
def giveUpStep (i : Nat) (closeOk : Bool) (w : World) : World :=
  let br := giveUpBranch (cs i) w.blob (w.holding i).stat
  let w' := w.modify i (closeForGiveUp br closeOk)
  if checkpointFollows br (w.holding i) then updateCheckpoint cs i w' else w'

/-- One step. -/
def step (w : World) : Action → World
  | .takeover i streamOk dialOk copyOk => takeoverStep cs alive vb i streamOk dialOk copyOk w
  | .takeoverRead i =>
      if (w.holding i).pending = none then
        w.modify i fun h => { h with pending := readForTakeover cs alive vb i w }
      else w
  | .takeoverFinish i streamOk dialOk copyOk =>
      match (w.holding i).pending with
      | some b => requestStream cs alive vb i b streamOk dialOk copyOk (w.modify i fun h => { h with pending := none })
      | none => w
  | .giveUp i closeOk => giveUpStep cs i closeOk w
  | .giveUpRead i =>
      if (w.holding i).giveUp = .idle then
        w.modify i fun h => { h with giveUp := .decided (giveUpBranch (cs i) w.blob h.stat) }
      else w
  | .giveUpClose i closeOk =>
      match (w.holding i).giveUp with
      | .decided br => w.modify i fun h =>
          { closeForGiveUp br closeOk h with
            giveUp := if checkpointFollows br h then .checkpointDue else .idle }
      | _ => w
  | .checkpoint i =>
      if (w.holding i).giveUp = .checkpointDue then
        (updateCheckpoint cs i w).modify i fun h => { h with giveUp := .idle }
      else w
  | .clearRequested i => w.modify i fun h => { h with vbStreamRequested := false }
  | .streamEnd i =>
      if (w.holding i).streamEndPending then
        ⟨w.blob.streamEnded, (w.modify i fun h => { h with streamEndPending := false }).holding⟩
      else w

/-- The steps `as`, in order. -/
def run (w : World) (as : List Action) : World := as.foldl (step cs alive vb) w

/-- `reclaimVbOwnership`: a take-over call, then the blob read back and checked for this
consumer's node and worker; `none` is Go's nil. -/
def reclaimVbOwnership (i : Nat) (streamOk dialOk copyOk : Bool) (w : World) : World × Option String :=
  let w' := takeoverStep cs alive vb i streamOk dialOk copyOk w
  (w', if w'.blob.nodeUuid = (cs i).uuid ∧ w'.blob.assignedWorker = (cs i).workerName then none
    else some "Failed to reclaim vb ownership")

/-- The condition on which the give-up routine's polling loop (`retryVbMetaStateCheck`) reads the
blob again: the stream is not running, or the blob still names this consumer. -/
def pollsAgain (c : Consumer) (b : VbBlob) : Bool :=
  b.dcpStreamStatus != dcpStreamRunning || (b.nodeUuid == c.uuid && b.assignedWorker == c.workerName)

/-- The steps of a run in which only the planned owner `p` takes the vbucket over, and every
give-up comes from a live consumer whose `DcpCloseStream` succeeds. -/
def Action.Sound (p : Nat) : Action → Prop
  | .takeover i .. | .takeoverRead i | .takeoverFinish i .. => i = p
  | .giveUp i closeOk | .giveUpClose i closeOk => Live cs alive i ∧ closeOk = true
  | .giveUpRead i => Live cs alive i
  | .checkpoint _ | .clearRequested _ | .streamEnd _ => True

/-- No live consumer other than `p` streams the vbucket. -/
def Quiet (p : Nat) (w : World) : Prop := ∀ k ≠ p, Live cs alive k → (w.holding k).streamOpen = false

/-- Consumer `k`, other than the planned owner `p`, holds the vbucket: the blob records it as the
running owner; among the live consumers other than `p` it alone streams and it alone has stats
naming it; no `DCP_STREAMEND` is on its way and no give-up waits for its checkpoint; a give-up
past its read on the owner branch is `k`'s; and `p` holds no copy read for the stream request,
does not stream and has no stats naming it. -/
structure Holds (p k : Nat) (w : World) : Prop where
  owner : w.blob.NamesOwner (cs k)
  streams : ∀ j ≠ p, Live cs alive j → (w.holding j).streamOpen = true → j = k
  named : ∀ j ≠ p, Live cs alive j → (w.holding j).stat.NamesConsumer (cs j) → j = k
  noStreamEnd : ∀ j, (w.holding j).streamEndPending = false
  noCheckpointDue : ∀ j, (w.holding j).giveUp ≠ .checkpointDue
  ownerBranch : ∀ j, (w.holding j).giveUp = .decided .owner → j = k
  plannedPending : (w.holding p).pending = none
  plannedClosed : (w.holding p).streamOpen = false
  plannedUnnamed : ¬(w.holding p).stat.NamesConsumer (cs p)

/-- The handoff invariant for the planned owner `p`: no live consumer other than `p` streams the
vbucket, or one does and holds it. -/
def Inv (p : Nat) (w : World) : Prop :=
  Quiet cs alive p w ∨ ∃ k, k ≠ p ∧ Live cs alive k ∧ (w.holding k).streamOpen = true ∧ Holds cs alive p k w

/-! ## Frame lemmas -/

variable {cs alive vb}

section Frame

variable {w : World} {i k : Nat}

@[simp] theorem World.modify_blob (f : Holding → Holding) : (w.modify i f).blob = w.blob := rfl

@[simp] theorem World.modify_holding_self (f : Holding → Holding) :
    (w.modify i f).holding i = f (w.holding i) := Function.update_same _ _ _

theorem World.modify_holding_ne (f : Holding → Holding) (h : k ≠ i) :
    (w.modify i f).holding k = w.holding k := Function.update_noteq h _ _

/-- Every holding after `w.modify i f` is the one before, or `f` of consumer `i`'s. -/
theorem World.modify_holding_cases (f : Holding → Holding) (k : Nat) :
    (w.modify i f).holding k = w.holding k ∨ k = i ∧ (w.modify i f).holding k = f (w.holding i) := by
  by_cases hki : k = i
  · exact .inr ⟨hki, hki ▸ World.modify_holding_self f⟩
  · exact .inl (World.modify_holding_ne f hki)

theorem World.modify_of_eq {f : Holding → Holding} (h : f (w.holding i) = w.holding i) : w.modify i f = w := by
  cases w
  simp only [World.modify] at h ⊢
  rw [h, Function.update_eq_self]

/-- A field that `f` keeps is the same in every holding after `w.modify i f`. -/
theorem World.modify_field {α : Type} (g : Holding → α) {f : Holding → Holding}
    (hg : g (f (w.holding i)) = g (w.holding i)) (j : Nat) : g ((w.modify i f).holding j) = g (w.holding j) := by
  rcases @World.modify_holding_cases w i f j with h | ⟨rfl, h⟩ <;> rw [h]
  exact hg

@[simp] theorem afterCall_callState : afterCall w i (callState w i) = w := if_pos rfl

theorem afterCall_holding_ne (s : TakeoverState) (h : k ≠ i) : (afterCall w i s).holding k = w.holding k := by
  unfold afterCall
  split
  · rfl
  · exact Function.update_noteq h _ _

/-- A change of one holding that opens no stream opens none. -/
theorem World.streamOpen_modify {f : Holding → Holding}
    (hf : (f (w.holding i)).streamOpen = true → (w.holding i).streamOpen = true)
    (ho : ((w.modify i f).holding k).streamOpen = true) : (w.holding k).streamOpen = true := by
  rcases @World.modify_holding_cases w i f k with h | ⟨rfl, h⟩ <;> rw [h] at ho
  · exact ho
  · exact hf ho

theorem updateCheckpoint_holding (j : Nat) :
    (updateCheckpoint cs i w).holding j = if j = i then { w.holding i with stat := clearedStat } else w.holding j := by
  simp only [updateCheckpoint, Consumer.checkpointBlob_stat, Function.update_apply]

@[simp] theorem updateCheckpoint_streamOpen :
    ((updateCheckpoint cs i w).holding k).streamOpen = (w.holding k).streamOpen := by
  rw [updateCheckpoint_holding]
  split <;> simp_all

end Frame

/-! ## The take-over call in two steps -/

/-- A take-over call that no other step interrupts is its read followed by its stream
request. -/
theorem takeoverStep_eq_requestStream (i : Nat) (streamOk dialOk copyOk : Bool) (w : World) :
    takeoverStep cs alive vb i streamOk dialOk copyOk w =
      match readForTakeover cs alive vb i w with
      | some b => requestStream cs alive vb i b streamOk dialOk copyOk w
      | none => w := by
  have hb : (callState w i).blob = w.blob := rfl
  simp only [takeoverStep, readForTakeover, requestStream, Consumer.doVbTakeover, outcomes, hb]
  cases (cs i).takeoverSwitch (alive w.blob.currentVbOwner w.blob.nodeUuid) vb w.blob
  · rfl
  · exact afterCall_callState

/-- While the blob records a running stream whose owner the oracle reports alive, a take-over
call's read goes no further. -/
theorem readForTakeover_of_live_owner {w : World} (hrun : w.blob.dcpStreamStatus = dcpStreamRunning)
    (halive : alive w.blob.currentVbOwner w.blob.nodeUuid = true) (i : Nat) :
    readForTakeover cs alive vb i w = none := by
  unfold readForTakeover
  split
  · rename_i hsw
    rcases Consumer.takeoverSwitch_startStream hsw with h | h
    · exact absurd hrun h
    · rw [halive] at h; cases h
  · rfl

/-- On a stopped blob a take-over call's read goes on to the stream request with the blob. -/
theorem readForTakeover_of_stopped {w : World} (hstop : w.blob.dcpStreamStatus = dcpStreamStopped) (i : Nat) :
    readForTakeover cs alive vb i w = some w.blob := by
  rw [readForTakeover, Consumer.takeoverSwitch_of_not_running (.inl hstop)]

/-- A stream request leaves every other consumer's holding as it was. -/
theorem requestStream_holding_ne {w : World} {i k : Nat} (b : VbBlob) (streamOk dialOk copyOk : Bool)
    (h : k ≠ i) : (requestStream cs alive vb i b streamOk dialOk copyOk w).holding k = w.holding k :=
  afterCall_holding_ne _ h

/-- A stream request past the guard that the DCP side accepts opens the caller's stream, records
it in the blob from the copy it read with its stats mirroring that, and keeps the caller's slots. -/
theorem requestStream_opens {w : World} {i : Nat} (b : VbBlob) (hreq : (w.holding i).vbStreamRequested = false)
    (dialOk copyOk : Bool) :
    (requestStream cs alive vb i b true dialOk copyOk w).blob = (cs i).streamStarted b ∧
      (requestStream cs alive vb i b true dialOk copyOk w).holding i =
        { w.holding i with
          stat := ((cs i).streamStarted b).stat, vbStreamRequested := true, streamOpen := true
          transfers := ((cs i).updateVbOwnerAndStartDCPStream (outcomes alive b true dialOk copyOk) vb b
            (callState w i)).1.transfers } := by
  have hreq' : (callState w i).vbStreamRequested = false := hreq
  obtain ⟨hblob, hset, hopen⟩ := @Consumer.updateVbOwnerAndStartDCPStream_opens (cs i)
    (outcomes alive b true dialOk copyOk) vb b (callState w i) hreq' rfl
  have hne : ((cs i).updateVbOwnerAndStartDCPStream (outcomes alive b true dialOk copyOk) vb b
      (callState w i)).1 ≠ callState w i := fun h => by
    rw [h, hreq'] at hset; cases hset
  simp only [requestStream, afterCall, if_neg hne, Function.update_same, hblob, hopen, hset, and_self]

/-! ## Frame lemmas of the give-up -/

@[simp] theorem closeStream_streamOpen (h : Holding) (closeOk : Bool) :
    (h.closeStream closeOk).streamOpen = (h.streamOpen && !closeOk) := rfl

/-- The give-up never opens a stream. -/
theorem closeForGiveUp_streamOpen {br : GiveUpBranch} {closeOk : Bool} {h : Holding}
    (ho : (closeForGiveUp br closeOk h).streamOpen = true) : h.streamOpen = true := by
  cases br <;> simp_all [closeForGiveUp]

/-- A successful close of a stream already closed changes neither the stream nor the
`DCP_STREAMEND` to come. -/
theorem closeStream_of_closed {h : Holding} (hc : h.streamOpen = false) :
    (h.closeStream true).streamOpen = h.streamOpen ∧ (h.closeStream true).streamEndPending = h.streamEndPending := by
  simp [Holding.closeStream, hc]

/-- A give-up on the owner branch is taken only on stats naming the consumer. -/
theorem giveUpBranch_owner {c : Consumer} {b : VbBlob} {st : VbStat} (h : giveUpBranch c b st = .owner) :
    st.NamesConsumer c := by
  unfold giveUpBranch at h
  split_ifs at h with h₁ h₂
  exact h₂

/-- A give-up leaves every other consumer's holding as it was. -/
theorem giveUpStep_holding_ne {w : World} {i k : Nat} (closeOk : Bool) (h : k ≠ i) :
    (giveUpStep cs i closeOk w).holding k = w.holding k := by
  dsimp only [giveUpStep]
  split
  · rw [updateCheckpoint_holding, if_neg h, World.modify_holding_ne _ h]
  · exact World.modify_holding_ne _ h

/-! ## What a step can change -/

section Steps

variable {p : Nat}

/-- In a sound step no consumer other than `p` opens a stream. -/
theorem streamOpen_of_step {w : World} {a : Action} (ha : a.Sound cs alive p) {k : Nat} (hk : k ≠ p)
    (ho : ((step cs alive vb w a).holding k).streamOpen = true) : (w.holding k).streamOpen = true := by
  cases a with
  | takeover i streamOk dialOk copyOk =>
    cases (ha : i = p)
    rwa [step, takeoverStep, afterCall_holding_ne _ hk] at ho
  | takeoverRead i =>
    cases (ha : i = p)
    simp only [step] at ho
    split at ho
    · rwa [World.modify_holding_ne _ hk] at ho
    · exact ho
  | takeoverFinish i streamOk dialOk copyOk =>
    cases (ha : i = p)
    simp only [step] at ho
    split at ho
    · rwa [requestStream_holding_ne _ _ _ _ hk, World.modify_holding_ne _ hk] at ho
    · exact ho
  | giveUp i closeOk =>
    simp only [step, giveUpStep] at ho
    split at ho
    · rw [updateCheckpoint_streamOpen] at ho
      exact World.streamOpen_modify closeForGiveUp_streamOpen ho
    · exact World.streamOpen_modify closeForGiveUp_streamOpen ho
  | giveUpRead i =>
    simp only [step] at ho
    split at ho
    · exact World.streamOpen_modify id ho
    · exact ho
  | giveUpClose i closeOk =>
    simp only [step] at ho
    split at ho
    · refine World.streamOpen_modify ?_ ho
      exact closeForGiveUp_streamOpen
    · exact ho
  | checkpoint i =>
    simp only [step] at ho
    split at ho
    · have := World.streamOpen_modify id ho
      rwa [updateCheckpoint_streamOpen] at this
    · exact ho
  | clearRequested i =>
    rw [step] at ho
    exact World.streamOpen_modify id ho
  | streamEnd i =>
    simp only [step] at ho
    split at ho
    · exact @World.streamOpen_modify w i k (fun h => { h with streamEndPending := false }) id ho
    · exact ho

/-- Once no live consumer other than `p` streams, none does after a sound step. -/
theorem quiet_step {w : World} (hq : Quiet cs alive p w) {a : Action} (ha : a.Sound cs alive p) :
    Quiet cs alive p (step cs alive vb w a) := fun k hk hl =>
  Bool.eq_false_iff.mpr fun ho => by
    have := hq k hk hl
    rw [streamOpen_of_step ha hk ho] at this
    cases this

/-- The blob names a consumer that streams and that the oracle reports alive, so the oracle
answers alive for the owner the blob names. -/
theorem Holds.alive_owner {k : Nat} {w : World} (hh : Holds cs alive p k w) (hk : Live cs alive k) :
    alive w.blob.currentVbOwner w.blob.nodeUuid = true := by
  rw [hh.owner.2.2.2, hh.owner.2.1]
  exact hk

/-- A change of one consumer's holding that touches neither its stream nor a `DCP_STREAMEND` to
come, names no consumer anew in its stats, keeps the planned owner's copy and takes no give-up to
its checkpoint, nor to the owner branch unless it is `k`'s, keeps `k` holding the vbucket. -/
theorem Holds.modify {k : Nat} {w : World} (hh : Holds cs alive p k w) {i : Nat} {f : Holding → Holding}
    (hopen : (f (w.holding i)).streamOpen = (w.holding i).streamOpen)
    (hend : (f (w.holding i)).streamEndPending = (w.holding i).streamEndPending)
    (hnamed : (f (w.holding i)).stat.NamesConsumer (cs i) → (w.holding i).stat.NamesConsumer (cs i))
    (hpending : (f (w.holding i)).pending = (w.holding i).pending)
    (hdue : (f (w.holding i)).giveUp ≠ .checkpointDue)
    (hbranch : (f (w.holding i)).giveUp = .decided .owner → i = k) :
    Holds cs alive p k (w.modify i f) where
  owner := hh.owner
  streams j hj hl ho := hh.streams j hj hl (World.modify_field Holding.streamOpen hopen j ▸ ho)
  named j hj hl hn := by
    rcases @World.modify_holding_cases w i f j with h | ⟨rfl, h⟩ <;> rw [h] at hn
    · exact hh.named j hj hl hn
    · exact hh.named j hj hl (hnamed hn)
  noStreamEnd j := (World.modify_field Holding.streamEndPending hend j).trans (hh.noStreamEnd j)
  noCheckpointDue j := by
    rcases @World.modify_holding_cases w i f j with h | ⟨rfl, h⟩ <;> rw [h]
    · exact hh.noCheckpointDue j
    · exact hdue
  ownerBranch j := by
    rcases @World.modify_holding_cases w i f j with h | ⟨rfl, h⟩ <;> rw [h]
    · exact hh.ownerBranch j
    · exact hbranch
  plannedPending := (World.modify_field Holding.pending hpending p).trans hh.plannedPending
  plannedClosed := (World.modify_field Holding.streamOpen hopen p).trans hh.plannedClosed
  plannedUnnamed hn := by
    rcases @World.modify_holding_cases w i f p with h | ⟨rfl, h⟩ <;> rw [h] at hn
    · exact hh.plannedUnnamed hn
    · exact hh.plannedUnnamed (hnamed hn)

/-- Once `k`, which held the vbucket, has closed its stream, and no other stream opened, no live
consumer other than `p` streams. -/
theorem Holds.quiet_of_closed {k : Nat} {w w' : World} (hh : Holds cs alive p k w)
    (hk : (w'.holding k).streamOpen = false)
    (hopen : ∀ j, (w'.holding j).streamOpen = true → (w.holding j).streamOpen = true) : Quiet cs alive p w' :=
  fun j hj hl => Bool.eq_false_iff.mpr fun ho => by
    obtain rfl := hh.streams j hj hl (hopen j ho)
    rw [hk] at ho
    cases ho

theorem Quiet.updateCheckpoint {w : World} (hq : Quiet cs alive p w) (i : Nat) :
    Quiet cs alive p (updateCheckpoint cs i w) := fun k hk hl => by
  rw [updateCheckpoint_streamOpen]
  exact hq k hk hl

/-- The give-up's close on the branch of another node's stream, by a consumer that does not
stream: it changes neither the stream nor a `DCP_STREAMEND` to come. -/
theorem closeForGiveUp_otherNode_of_closed {h : Holding} (hc : h.streamOpen = false) :
    (closeForGiveUp .otherNode true h).streamOpen = h.streamOpen ∧
      (closeForGiveUp .otherNode true h).streamEndPending = h.streamEndPending :=
  closeStream_of_closed hc

/-- Stats the give-up cleared name no consumer. -/
theorem clearedStat_not_names (hname : ∀ i, (cs i).workerName ≠ "") (i : Nat) :
    ¬clearedStat.NamesConsumer (cs i) := fun h => hname i h.2.symm

/-- From a world where `k` streams the vbucket and holds it, a sound step either releases it, no
live consumer other than `p` streaming any more, or leaves `k` streaming and holding it. -/
theorem Holds.step_cases (hname : ∀ i, (cs i).workerName ≠ "") {k : Nat} {w : World} (hh : Holds cs alive p k w)
    (hk : Live cs alive k) (hok : (w.holding k).streamOpen = true) {a : Action} (ha : a.Sound cs alive p) :
    Quiet cs alive p (step cs alive vb w a) ∨
      ((step cs alive vb w a).holding k).streamOpen = true ∧ Holds cs alive p k (step cs alive vb w a) := by
  have stays : ∀ {w'}, w' = w → Quiet cs alive p w' ∨ (w'.holding k).streamOpen = true ∧ Holds cs alive p k w' :=
    fun h => h ▸ .inr ⟨hok, hh⟩
  have kept : ∀ {i} {f : Holding → Holding}, (f (w.holding i)).streamOpen = (w.holding i).streamOpen →
      Holds cs alive p k (w.modify i f) →
      Quiet cs alive p (w.modify i f) ∨ ((w.modify i f).holding k).streamOpen = true ∧ Holds cs alive p k (w.modify i f) :=
    fun hopen hh' => .inr ⟨(World.modify_field Holding.streamOpen hopen k).trans hok, hh'⟩
  have closed_of_ne : ∀ {i}, Live cs alive i → i ≠ k → (w.holding i).streamOpen = false := fun {i} hi hik => by
    by_cases hip : i = p
    · exact hip ▸ hh.plannedClosed
    · exact Bool.eq_false_iff.mpr fun ho => hik (hh.streams i hip hi ho)
  have named_eq : ∀ {i}, Live cs alive i → (w.holding i).stat.NamesConsumer (cs i) → i = k := fun {i} hi hn => by
    by_cases hip : i = p
    · exact absurd (hip ▸ hn) hh.plannedUnnamed
    · exact hh.named i hip hi hn
  have closes : ∀ (br : GiveUpBranch) {f : Holding → Holding}, br ≠ .skip →
      (∀ h, (f h).streamOpen = (closeForGiveUp br true h).streamOpen) → Quiet cs alive p (w.modify k f) :=
    fun br f hbr hf => hh.quiet_of_closed
      (by
        rw [World.modify_holding_self, hf]
        cases br with
        | skip => exact absurd rfl hbr
        | _ => simp [closeForGiveUp, Holding.closeStream])
      fun _ => World.streamOpen_modify fun ho => closeForGiveUp_streamOpen ((hf _).symm.trans ho)
  cases a with
  | takeover i streamOk dialOk copyOk =>
    cases (ha : i = p)
    refine stays ?_
    rw [step, takeoverStep_eq_requestStream, readForTakeover_of_live_owner hh.owner.1 (hh.alive_owner hk)]
  | takeoverRead i =>
    cases (ha : i = p)
    refine stays ?_
    rw [step, if_pos hh.plannedPending, readForTakeover_of_live_owner hh.owner.1 (hh.alive_owner hk)]
    exact World.modify_of_eq (by rw [← hh.plannedPending])
  | takeoverFinish i streamOk dialOk copyOk =>
    cases (ha : i = p)
    refine stays ?_
    simp only [step, hh.plannedPending]
  | giveUp i closeOk =>
    obtain ⟨hi, rfl⟩ := ha
    simp only [step, giveUpStep]
    cases hbr : giveUpBranch (cs i) w.blob (w.holding i).stat with
    | otherNode =>
      simp only [checkpointFollows, beq_self_eq_true, reduceCtorEq, Bool.false_and, if_false,
        Bool.false_eq_true, beq_iff_eq]
      by_cases hik : i = k
      · subst hik
        exact .inl (closes .otherNode nofun fun _ => rfl)
      · have hc := closeForGiveUp_otherNode_of_closed (closed_of_ne hi hik)
        exact kept hc.1 (hh.modify hc.1 hc.2 (fun hn => absurd hn (clearedStat_not_names hname i)) rfl
          (hh.noCheckpointDue i) (hh.ownerBranch i))
    | owner =>
      obtain rfl := named_eq hi (giveUpBranch_owner hbr)
      split
      · exact .inl ((closes .owner nofun fun _ => rfl).updateCheckpoint i)
      · exact .inl (closes .owner nofun fun _ => rfl)
    | skip =>
      refine stays ?_
      simp only [checkpointFollows, reduceCtorEq, Bool.false_and, Bool.false_eq_true, if_false, beq_iff_eq]
      exact World.modify_of_eq rfl
  | giveUpRead i =>
    simp only [step]
    split
    · exact kept rfl (hh.modify rfl rfl id rfl (by simp) fun hb =>
        named_eq ha (giveUpBranch_owner (GiveUpPhase.decided.inj hb)))
    · exact stays rfl
  | giveUpClose i closeOk =>
    obtain ⟨hi, rfl⟩ := ha
    simp only [step]
    split
    · rename_i br hphase
      cases br with
      | owner =>
        obtain rfl := hh.ownerBranch i hphase
        exact .inl (closes .owner nofun fun _ => rfl)
      | otherNode =>
        by_cases hik : i = k
        · subst hik
          exact .inl (closes .otherNode nofun fun _ => rfl)
        · have hc := closeForGiveUp_otherNode_of_closed (closed_of_ne hi hik)
          exact kept hc.1 (hh.modify hc.1 hc.2 (fun hn => absurd hn (clearedStat_not_names hname i)) rfl
            (by simp [checkpointFollows]) (by simp [checkpointFollows]))
      | skip => exact kept rfl (hh.modify rfl rfl id rfl (by simp [checkpointFollows]) (by simp [checkpointFollows]))
    · exact stays rfl
  | checkpoint i =>
    refine stays ?_
    rw [step, if_neg (hh.noCheckpointDue i)]
  | clearRequested i =>
    rw [step]
    exact kept rfl (hh.modify rfl rfl id rfl (hh.noCheckpointDue i) (hh.ownerBranch i))
  | streamEnd i =>
    refine stays ?_
    simp only [step, hh.noStreamEnd i, Bool.false_eq_true, if_false]

/-- Sound steps keep the handoff invariant. -/
theorem step_inv (hname : ∀ i, (cs i).workerName ≠ "") {w : World} (hw : Inv cs alive p w) {a : Action}
    (ha : a.Sound cs alive p) : Inv cs alive p (step cs alive vb w a) := by
  rcases hw with hq | ⟨k, hkp, hk, hok, hh⟩
  · exact .inl (quiet_step hq ha)
  · exact (hh.step_cases hname hk hok ha).imp_right fun ⟨ho, hh'⟩ => ⟨k, hkp, hk, ho, hh'⟩

/-- Sound runs keep the handoff invariant. -/
theorem run_inv (hname : ∀ i, (cs i).workerName ≠ "") {w : World} (hw : Inv cs alive p w) :
    ∀ {as : List Action}, (∀ a ∈ as, a.Sound cs alive p) → Inv cs alive p (run cs alive vb w as)
  | [], _ => hw
  | a :: _, h => run_inv hname (step_inv hname hw (h a (.head _))) fun b hb => h b (.tail _ hb)

end Steps

/-! ## Exclusive streams -/

/-- The world of a two-node cluster in which consumer `0` streams the vbucket is in the handoff
invariant for the planned owner `1`. -/
theorem inv_two_nodes_streaming :
    Inv (fun i => ⟨toString i, "worker_app_0", toString i ++ ":8096", "app", "/e" ++ toString i, ∅, ∅, ∅⟩)
      (fun _ _ => true) 1
      ⟨⟨dcpStreamRunning, "0", "worker_app_0", "0:8096", "", "", "", ""⟩,
        fun i => if i = 0 then ⟨⟨"0", "worker_app_0", "0:8096", dcpStreamRunning⟩, false, false, true, [], none, .idle, false⟩
          else ⟨⟨"", "", "", ""⟩, false, false, false, [], none, .idle, false⟩⟩ :=
  .inr ⟨0, by decide, rfl, rfl,
    { owner := ⟨rfl, rfl, rfl, rfl⟩
      streams := fun j _ _ ho => by_contra fun h => by simp [h] at ho
      named := fun j _ _ hn => by_contra fun h => by simp [h, VbStat.NamesConsumer] at hn
      noStreamEnd := fun j => by by_cases h : j = 0 <;> simp [h]
      noCheckpointDue := fun j => by by_cases h : j = 0 <;> simp [h]
      ownerBranch := fun j => by by_cases h : j = 0 <;> simp [h]
      plannedPending := rfl
      plannedClosed := rfl
      plannedUnnamed := fun hn => by simp [VbStat.NamesConsumer] at hn }⟩

/-- In every sound run from a world of the invariant, the polling loop of a live consumer's
give-up, other than the planned owner's, can stop only once that consumer no longer streams the
vbucket: it waits while the stream is not running or the blob still names the consumer. -/
theorem run_poll_stops_after_close (hname : ∀ i, (cs i).workerName ≠ "") {p : Nat} {w : World}
    (hw : Inv cs alive p w) {as : List Action} (has : ∀ a ∈ as, a.Sound cs alive p) {i : Nat} (hip : i ≠ p)
    (hi : Live cs alive i) (hpoll : pollsAgain (cs i) (run cs alive vb w as).blob = false) :
    ((run cs alive vb w as).holding i).streamOpen = false := by
  rcases run_inv hname hw has with hq | ⟨k, -, -, -, hh⟩
  · exact hq i hip hi
  · refine Bool.eq_false_iff.mpr fun ho => ?_
    obtain rfl := hh.streams i hip hi ho
    obtain ⟨hrun, hnode, hworker, -⟩ := hh.owner
    simp [pollsAgain, hrun, hnode, hworker] at hpoll

/-- The handoff of `run_streams_exclusive_handoff`: once consumer `1` streams, the poll of
consumer `0` stops, its stream closed. -/
theorem run_poll_stops_after_close_handoff :
    let cs : Nat → Consumer := fun i =>
      ⟨toString i, "worker_app_0", toString i ++ ":8096", "app", "/e" ++ toString i, ∅, ∅, ∅⟩
    let w : World := ⟨⟨dcpStreamRunning, "0", "worker_app_0", "0:8096", "", "", "", ""⟩,
      fun i => if i = 0 then ⟨⟨"0", "worker_app_0", "0:8096", dcpStreamRunning⟩, false, false, true, [], none, .idle, false⟩
        else ⟨⟨"", "", "", ""⟩, false, false, false, [], none, .idle, false⟩⟩
    let as := [Action.giveUpRead 0, .giveUpClose 0 true, .checkpoint 0, .takeoverRead 1,
      .takeoverFinish 1 true true true]
    pollsAgain (cs 0) (run cs (fun _ _ => true) 7 w as).blob = false ∧
      ((run cs (fun _ _ => true) 7 w as).holding 0).streamOpen = false := by
  intro cs w as
  have hpoll : pollsAgain (cs 0) (run cs (fun _ _ => true) 7 w as).blob = false := by decide
  exact ⟨hpoll, @run_poll_stops_after_close cs (fun _ _ => true) 7 (fun _ => by simp [cs]) 1 w
    inv_two_nodes_streaming as (by simp [as, Action.Sound, Live]) 0 (by decide) rfl hpoll⟩

/-! ## Reclaiming -/

/-- `reclaimVbOwnership` returns nil exactly when the blob after its call names the caller's
node and worker. -/
theorem reclaimVbOwnership_snd_eq_none {i : Nat} {streamOk dialOk copyOk : Bool} {w : World} :
    (reclaimVbOwnership cs alive vb i streamOk dialOk copyOk w).2 = none ↔
      (reclaimVbOwnership cs alive vb i streamOk dialOk copyOk w).1.blob.nodeUuid = (cs i).uuid ∧
        (reclaimVbOwnership cs alive vb i streamOk dialOk copyOk w).1.blob.assignedWorker =
          (cs i).workerName := by
  simp only [reclaimVbOwnership]
  split_ifs with h <;> simp [h]

/-- Two consumers take a stopped vbucket over at once, which the planned-owner assumption rules
out: `i` reads the blob, `j`'s `reclaimVbOwnership` then opens its stream and reads the blob back
naming itself, so it returns nil, and `i`'s stream request with the copy it read opens a second
stream and records `i` in the blob. -/
theorem reclaimVbOwnership_race {w : World} {i j : Nat} (hij : i ≠ j)
    (hstop : w.blob.dcpStreamStatus = dcpStreamStopped) (hpend : (w.holding i).pending = none)
    (hreqi : (w.holding i).vbStreamRequested = false) (hreqj : (w.holding j).vbStreamRequested = false)
    (dialOk copyOk dialOk' copyOk' : Bool) :
    let r := reclaimVbOwnership cs alive vb j true dialOk' copyOk' (step cs alive vb w (.takeoverRead i))
    let w' := step cs alive vb r.1 (.takeoverFinish i true dialOk copyOk)
    r.2 = none ∧ (w'.holding i).streamOpen = true ∧ (w'.holding j).streamOpen = true ∧
      w'.blob.NamesOwner (cs i) := by
  have hji : j ≠ i := Ne.symm hij
  intro r w'
  have h₁ : step cs alive vb w (.takeoverRead i) = w.modify i fun h => { h with pending := some w.blob } := by
    rw [step, if_pos hpend, readForTakeover_of_stopped hstop]
  generalize hw₁ : (w.modify i fun h => { h with pending := some w.blob }) = w₁ at h₁
  have hb₁ : w₁.blob = w.blob := by rw [← hw₁]; rfl
  have hi₁ : w₁.holding i = { w.holding i with pending := some w.blob } := by
    rw [← hw₁, World.modify_holding_self]
  have hj₁ : w₁.holding j = w.holding j := by rw [← hw₁, World.modify_holding_ne _ hji]
  obtain ⟨hb₂, hh₂⟩ := @requestStream_opens cs alive vb w₁ j w.blob (hj₁ ▸ hreqj) dialOk' copyOk'
  have h₂ : r.1 = requestStream cs alive vb j w.blob true dialOk' copyOk' w₁ := by
    simp only [r, reclaimVbOwnership, h₁, takeoverStep_eq_requestStream,
      @readForTakeover_of_stopped cs alive vb w₁ (hb₁ ▸ hstop), hb₁]
  have hi₂ : (requestStream cs alive vb j w.blob true dialOk' copyOk' w₁).holding i = w₁.holding i :=
    requestStream_holding_ne _ _ _ _ hij
  generalize requestStream cs alive vb j w.blob true dialOk' copyOk' w₁ = w₂ at h₂ hb₂ hh₂ hi₂
  have hw' : w' = requestStream cs alive vb i w.blob true dialOk copyOk
      (w₂.modify i fun h => { h with pending := none }) := by
    simp only [w', h₂, step, hi₂, hi₁]
  obtain ⟨hb₃, hh₃⟩ := @requestStream_opens cs alive vb (w₂.modify i fun h => { h with pending := none }) i w.blob
    (by rw [World.modify_holding_self, hi₂, hi₁]; exact hreqi) dialOk copyOk
  have hn : r.1.blob.NamesOwner (cs j) := by rw [h₂, hb₂]; exact ⟨rfl, rfl, rfl, rfl⟩
  refine ⟨reclaimVbOwnership_snd_eq_none.2 ⟨hn.2.1, hn.2.2.1⟩, by rw [hw', hh₃], ?_,
    by rw [hw', hb₃]; exact ⟨rfl, rfl, rfl, rfl⟩⟩
  rw [hw', requestStream_holding_ne _ _ _ _ hji, World.modify_holding_ne _ hji, hh₂]

/-- Consumers `0` and `1` of a two-node cluster race for a stopped vbucket. -/
theorem reclaimVbOwnership_race_two_nodes :
    let cs : Nat → Consumer := fun i =>
      ⟨toString i, "worker_app_0", toString i ++ ":8096", "app", "/e" ++ toString i, ∅, ∅, ∅⟩
    let w : World := ⟨⟨dcpStreamStopped, "", "", "", "", "", "", ""⟩,
      fun _ => ⟨⟨"", "", "", ""⟩, false, false, false, [], none, .idle, false⟩⟩
    let r := reclaimVbOwnership cs (fun _ _ => true) 7 1 true true true
      (step cs (fun _ _ => true) 7 w (.takeoverRead 0))
    let w' := step cs (fun _ _ => true) 7 r.1 (.takeoverFinish 0 true true true)
    r.2 = none ∧ (w'.holding 0).streamOpen = true ∧ (w'.holding 1).streamOpen = true ∧
      w'.blob.NamesOwner (cs 0) := by
  intro cs w
  exact @reclaimVbOwnership_race cs (fun _ _ => true) 7 w 0 1 (by decide) rfl rfl rfl rfl true true true true

/-! ## A handoff -/

/-- The give-up of the consumer the stats and the blob's node name, on its first close, no other
step interrupting it: `updateCheckpoint` writes the blob, whatever `DcpCloseStream` answered. -/
theorem giveUpStep_of_owner {w : World} {i : Nat} (closeOk : Bool) (hnode : w.blob.nodeUuid = (cs i).uuid)
    (hstat : (w.holding i).stat.NamesConsumer (cs i)) (hfirst : (w.holding i).vbsStreamClosed = false) :
    giveUpStep cs i closeOk w = ⟨(cs i).checkpointBlob w.blob, Function.update w.holding i
      { (w.holding i).closeStream closeOk with vbsStreamClosed := true, stat := clearedStat }⟩ := by
  have hbr : giveUpBranch (cs i) w.blob (w.holding i).stat = .owner := by
    rw [VbStat.NamesConsumer] at hstat
    simp [giveUpBranch, hnode, hstat]
  simp only [giveUpStep, hbr, checkpointFollows, hfirst, beq_self_eq_true, Bool.not_false, Bool.and_self,
    if_true, updateCheckpoint, World.modify, World.modify_blob, Function.update_same, Function.update_idem,
    Consumer.checkpointBlob_stat, closeForGiveUp]

/-- A take-over call on a stopped blob, past the guard, whose stream request, dial and copy
succeed: the caller streams, the blob and the stats name it, and it pulls the timer data of
the previous owner the blob names when that owner ran on another node. -/
theorem takeoverStep_of_stopped {w : World} {j : Nat} (hstop : w.blob.dcpStreamStatus = dcpStreamStopped)
    (hreq : (w.holding j).vbStreamRequested = false) :
    takeoverStep cs alive vb j true true true w = ⟨(cs j).streamStarted w.blob, Function.update w.holding j
      { w.holding j with
        stat := ((cs j).streamStarted w.blob).stat, vbStreamRequested := true, streamOpen := true
        transfers := (w.holding j).transfers ++ if (cs j).uuid = w.blob.previousNodeUUID then [] else
          [.downloadDir (timerDataPath w.blob.previousEventingDir vb (cs j).appName),
            .copyPlasmaRecords vb] }⟩ := by
  have hreq' : (callState w j).vbStreamRequested = false := hreq
  have hne : ∀ s : TakeoverState, s.vbStreamRequested = true → s ≠ callState w j := fun s hs h => by
    rw [h, hreq'] at hs
    cases hs
  rw [takeoverStep_eq_requestStream, readForTakeover_of_stopped hstop]
  simp only [requestStream, outcomes]
  rw [Consumer.updateVbOwnerAndStartDCPStream_ok hreq' ⟨rfl, rfl, rfl⟩, afterCall, if_neg (hne _ rfl)]
  rfl

/-- The handoff: after the owner's give-up with a successful close, a take-over call of another
consumer whose stream request, dial and copy succeed leaves the owner's stream closed and the
other's open, the blob recording the new owner, the owner's polling loop released, and the new
owner holding the old owner's timer directory and records exactly when it runs on another
node. -/
theorem giveUp_then_takeover (hid : ∀ i j, (cs i).uuid = (cs j).uuid → (cs i).workerName = (cs j).workerName → i = j)
    {w : World} {i j : Nat} (hij : i ≠ j) (hnode : w.blob.nodeUuid = (cs i).uuid)
    (hstat : (w.holding i).stat.NamesConsumer (cs i)) (hfirst : (w.holding i).vbsStreamClosed = false)
    (hreq : (w.holding j).vbStreamRequested = false) :
    let w' := run cs alive vb w [.giveUp i true, .takeover j true true true]
    (w'.holding i).streamOpen = false ∧ (w'.holding j).streamOpen = true ∧
      w'.blob.NamesOwner (cs j) ∧ pollsAgain (cs i) w'.blob = false ∧
      (w'.holding j).transfers = (w.holding j).transfers ++
        if (cs j).uuid = (cs i).uuid then [] else
          [.downloadDir (timerDataPath (cs i).eventingDir vb (cs j).appName), .copyPlasmaRecords vb] := by
  have hji : j ≠ i := Ne.symm hij
  simp only [run, List.foldl_cons, List.foldl_nil, step]
  have h₁ := giveUpStep_of_owner true hnode hstat hfirst
  generalize giveUpStep cs i true w = w₁ at h₁ ⊢
  have hreq₁ : (w₁.holding j).vbStreamRequested = false := by
    simpa only [h₁, Function.update_noteq hji] using hreq
  rw [takeoverStep_of_stopped (by rw [h₁]; rfl) hreq₁]
  simp only [h₁, Function.update_same, Function.update_noteq hij, Function.update_noteq hji,
    Holding.closeStream, Bool.not_true, Bool.and_false]
  refine ⟨trivial, trivial, ⟨rfl, rfl, rfl, rfl⟩, ?_, by simp [Consumer.checkpointBlob, eq_comm]⟩
  have hpoll : ¬((cs j).uuid = (cs i).uuid ∧ (cs j).workerName = (cs i).workerName) :=
    fun h => hji (hid j i h.1 h.2)
  simpa [pollsAgain, Consumer.streamStarted, Consumer.checkpointBlob] using hpoll

/-- Consumer `0` of node `"0"` hands the vbucket to consumer `1` of node `"1"`, which pulls
`/e0/reb_7_app_timer.data`. -/
theorem giveUp_then_takeover_two_nodes :
    let cs : Nat → Consumer := fun i =>
      ⟨toString i, "worker_app_0", toString i ++ ":8096", "app", "/e" ++ toString i, ∅, ∅, ∅⟩
    let w : World := ⟨⟨dcpStreamRunning, "0", "worker_app_0", "0:8096", "", "", "", ""⟩,
      fun i => if i = 0 then ⟨⟨"0", "worker_app_0", "0:8096", dcpStreamRunning⟩, false, false, true, [], none, .idle, false⟩
        else ⟨⟨"", "", "", ""⟩, false, false, false, [], none, .idle, false⟩⟩
    let w' := run cs (fun _ _ => true) 7 w [.giveUp 0 true, .takeover 1 true true true]
    (w'.holding 0).streamOpen = false ∧ (w'.holding 1).streamOpen = true ∧
      w'.blob.NamesOwner (cs 1) ∧ pollsAgain (cs 0) w'.blob = false ∧
      (w'.holding 1).transfers = (w.holding 1).transfers ++
        if (cs 1).uuid = (cs 0).uuid then [] else
          [.downloadDir (timerDataPath (cs 0).eventingDir 7 (cs 1).appName), .copyPlasmaRecords 7] := by
  intro cs w
  exact giveUp_then_takeover (fun i j h _ => toString_injective h) (by decide) rfl ⟨rfl, rfl⟩ rfl rfl

/-- A take-over call on a stopped blob, past the guard, whose stream request succeeds opens
the caller's stream with the blob naming it, and leaves every other consumer as it was. -/
theorem takeoverStep_opens {w : World} {j : Nat} (hstop : w.blob.dcpStreamStatus = dcpStreamStopped)
    (hreq : (w.holding j).vbStreamRequested = false) (dialOk copyOk : Bool) :
    (takeoverStep cs alive vb j true dialOk copyOk w).blob = (cs j).streamStarted w.blob ∧
      ((takeoverStep cs alive vb j true dialOk copyOk w).holding j).streamOpen = true ∧
      ∀ k ≠ j, (takeoverStep cs alive vb j true dialOk copyOk w).holding k = w.holding k := by
  obtain ⟨hblob, hopen⟩ := @requestStream_opens cs alive vb w j w.blob hreq dialOk copyOk
  rw [takeoverStep_eq_requestStream, readForTakeover_of_stopped hstop]
  exact ⟨hblob, by rw [hopen], fun k hk => requestStream_holding_ne _ _ _ _ hk⟩

/-- A give-up whose `DcpCloseStream` fails still writes the stopped checkpoint, and the next
take-over call of another consumer whose stream request succeeds opens a second stream: both
consumers then stream the vbucket. -/
theorem giveUp_failed_close_two_streams {w : World} {i j : Nat} (hij : i ≠ j)
    (hopen : (w.holding i).streamOpen = true) (hnode : w.blob.nodeUuid = (cs i).uuid)
    (hstat : (w.holding i).stat.NamesConsumer (cs i)) (hfirst : (w.holding i).vbsStreamClosed = false)
    (hreq : (w.holding j).vbStreamRequested = false) (dialOk copyOk : Bool) :
    let w' := run cs alive vb w [.giveUp i false, .takeover j true dialOk copyOk]
    w'.blob.NamesOwner (cs j) ∧ (w'.holding i).streamOpen = true ∧ (w'.holding j).streamOpen = true := by
  have hji : j ≠ i := Ne.symm hij
  simp only [run, List.foldl_cons, List.foldl_nil, step]
  have h₁ := giveUpStep_of_owner false hnode hstat hfirst
  generalize giveUpStep cs i false w = w₁ at h₁ ⊢
  have hreq₁ : (w₁.holding j).vbStreamRequested = false := by
    simpa only [h₁, Function.update_noteq hji] using hreq
  have hopen₁ : (w₁.holding i).streamOpen = true := by simpa [h₁, Holding.closeStream] using hopen
  obtain ⟨hblob, hopen', hframe⟩ := @takeoverStep_opens cs alive vb w₁ j (by rw [h₁]; rfl) hreq₁
    dialOk copyOk
  exact ⟨hblob ▸ ⟨rfl, rfl, rfl, rfl⟩, (hframe i hij).symm ▸ hopen₁, hopen'⟩

/-- Consumer `0` owns the vbucket; its close fails, and consumer `1` opens a second stream. -/
theorem giveUp_failed_close_two_streams_two_nodes :
    let cs : Nat → Consumer := fun i =>
      ⟨toString i, "worker_app_0", toString i ++ ":8096", "app", "/e" ++ toString i, ∅, ∅, ∅⟩
    let w : World := ⟨⟨dcpStreamRunning, "0", "worker_app_0", "0:8096", "", "", "", ""⟩,
      fun i => if i = 0 then ⟨⟨"0", "worker_app_0", "0:8096", dcpStreamRunning⟩, false, false, true, [], none, .idle, false⟩
        else ⟨⟨"", "", "", ""⟩, false, false, false, [], none, .idle, false⟩⟩
    let w' := run cs (fun _ _ => true) 7 w [.giveUp 0 false, .takeover 1 true true true]
    w'.blob.NamesOwner (cs 1) ∧ (w'.holding 0).streamOpen = true ∧ (w'.holding 1).streamOpen = true := by
  intro cs w
  exact giveUp_failed_close_two_streams (by decide) rfl rfl ⟨rfl, rfl⟩ rfl rfl true true

end Handoff

end Eventing
