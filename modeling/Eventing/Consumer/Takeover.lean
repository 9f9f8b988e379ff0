import Eventing.Consumer.Ownership

/-! # Taking over a vbucket

`doVbTakeover` reads the vbucket's checkpoint blob and, when its switch on the
blob allows it, calls `updateVbOwnerAndStartDCPStream` with the copy it read,
which marks the vbucket in `vbStreamRequested`, opens the DCP stream, and then
pulls the previous owner's timer directory over RPC and copies its records into
the local store. A takeover routine repeats the call through `util.Retry` until
one returns nil.

## Implementation notes

The collaborators outside the sources answer through `Outcomes`: the liveness
oracle, `dcpRequestStreamHandle`, the RPC dial and `copyPlasmaRecords`. The
callbacks wrapped in `util.Retry` (the blob read, the timer address lookups and
`downloadDirCallback`) loop until they succeed, so a call that returns has
passed each of them. `TakeoverState` holds what one consumer's calls change for
one vbucket: the blob in the metadata store, its membership of
`vbStreamRequested`, the stream, and the timer transfers made so far. The
switch (`takeoverSwitch`) is a function of the copy read, so that a model of
concurrent consumers can let other steps run between the read and the stream
request.
-/

namespace Eventing

/-- Modelled from the spec: the stream states `running`, `stopped` and `uninitialised`,
whose constants lie outside the sources. -/
def dcpStreamRunning : String := "running"

/-- Modelled from the spec, as `dcpStreamRunning`. -/
def dcpStreamStopped : String := "stopped"

/-- Modelled from the spec, as `dcpStreamRunning`. -/
def dcpStreamUninitialised : String := "uninitialised"

/-- The fields of `vbucketKVBlob` that the rebalance reads or writes. -/
structure VbBlob where
  dcpStreamStatus : String
  nodeUuid : String
  assignedWorker : String
  currentVbOwner : String
  previousNodeUUID : String
  previousAssignedWorker : String
  previousEventingDir : String
  previousVbOwner : String
  deriving DecidableEq, Repr

/-- The answers of the collaborators outside the sources during one call. -/
structure Outcomes where
  alive : Bool
  streamOk : Bool
  dialOk : Bool
  copyOk : Bool
  deriving DecidableEq, Repr

/-- The errors `doVbTakeover` returns; the last two stand for the errors of
`dcpRequestStreamHandle` and `copyPlasmaRecords`. -/
inductive TakeoverError
  | failedConnectRemoteRPC
  | unexpectedVbStreamStatus
  | vbOwnedByAnotherWorker
  | vbOwnedByAnotherNode
  | dcpRequestStream
  | copyPlasmaRecords
  deriving DecidableEq, Repr

/-- Where the switch of `doVbTakeover` leads: on to `updateVbOwnerAndStartDCPStream`, or back
to the caller with a result. -/
inductive TakeoverSwitch
  | startStream
  | returns (e : Option TakeoverError)
  deriving DecidableEq, Repr

/-- A step of the timer transfer: the download of a directory, or the copy of its records
into the local store. -/
inductive TimerTransfer
  | downloadDir (src : String)
  | copyPlasmaRecords (vb : UInt16)
  deriving DecidableEq, Repr

/-- What one consumer's takeover calls change for one vbucket. -/
structure TakeoverState where
  blob : VbBlob
  vbStreamRequested : Bool
  streamOpen : Bool
  transfers : List TimerTransfer
  deriving DecidableEq, Repr

/-- `fmt.Sprintf("%v/reb_%v_%v_timer.data", dir, vb, appName)`. -/
def timerDataPath (dir : String) (vb : UInt16) (appName : String) : String :=
  dir ++ "/reb_" ++ toString vb ++ "_" ++ appName ++ "_timer.data"

namespace Consumer

variable (c : Consumer)

/-- Modelled from the spec: a successful `dcpRequestStreamHandle`, absent from the sources,
records the new ownership in the blob it is handed. -/
def streamStarted (b : VbBlob) : VbBlob :=
  { b with
    dcpStreamStatus := dcpStreamRunning
    nodeUuid := c.uuid
    assignedWorker := c.workerName
    currentVbOwner := c.hostPortAddr }

/-- `updateVbOwnerAndStartDCPStream`, with `b` the blob its caller read, which it hands to
`dcpRequestStreamHandle`. A failed stream request deletes the mark it inserted, so it leaves
`vbStreamRequested` as it was. -/
def updateVbOwnerAndStartDCPStream (o : Outcomes) (vb : UInt16) (b : VbBlob)
    (s : TakeoverState) : TakeoverState × Option TakeoverError :=
  if s.vbStreamRequested then (s, none)
  else if !o.streamOk then (s, some .dcpRequestStream)
  else
    let s := { s with vbStreamRequested := true, streamOpen := true, blob := c.streamStarted b }
    if !o.dialOk then (s, some .failedConnectRemoteRPC)
    else if c.uuid != b.previousNodeUUID then
      let s := { s with
        transfers := s.transfers ++ [.downloadDir (timerDataPath b.previousEventingDir vb c.appName)] }
      if !o.copyOk then (s, some .copyPlasmaRecords)
      else ({ s with transfers := s.transfers ++ [.copyPlasmaRecords vb] }, none)
    else (s, none)

/-- The switch of `doVbTakeover` on the stream status of the blob `b` it read, the oracle
`IsEventingNodeAlive` answering `alive` for the owner `b` names. -/
def takeoverSwitch (alive : Bool) (vb : UInt16) (b : VbBlob) : TakeoverSwitch :=
  if b.dcpStreamStatus = dcpStreamRunning then
    if b.nodeUuid = c.uuid ∧ b.assignedWorker = c.workerName then .returns none
    else if c.uuid ≠ b.nodeUuid ∧ !alive ∧ c.checkIfCurrentNodeShouldOwnVb vb then
      if b.nodeUuid = c.uuid ∧ b.assignedWorker ≠ c.workerName then
        .returns (some .vbOwnedByAnotherWorker)
      else .startStream
    else if b.nodeUuid = c.uuid ∧ b.assignedWorker ≠ c.workerName then
      .returns (some .vbOwnedByAnotherWorker)
    else .returns (some .vbOwnedByAnotherNode)
  else if b.dcpStreamStatus = dcpStreamStopped ∨ b.dcpStreamStatus = dcpStreamUninitialised then
    .startStream
  else .returns (some .unexpectedVbStreamStatus)

/-- `doVbTakeover`: the blob read from the store, the switch on it, and the stream request
with the copy read. -/
def doVbTakeover (o : Outcomes) (vb : UInt16) (s : TakeoverState) :
    TakeoverState × Option TakeoverError :=
  match c.takeoverSwitch o.alive vb s.blob with
  | .startStream => c.updateVbOwnerAndStartDCPStream o vb s.blob s
  | .returns e => (s, e)

/-- `util.Retry(..., vbTakeoverCallback, c, vb)`: call `doVbTakeover` with the answers `os`,
one call each, until a call returns nil. Gives the results of the calls made and the
final state. -/
def retryVbTakeover (vb : UInt16) :
    List Outcomes → TakeoverState → List (Option TakeoverError) × TakeoverState
  | [], s => ([], s)
  | o :: os, s =>
      match c.doVbTakeover o vb s with
      | (s', none) => ([none], s')
      | (s', some e) => let rest := retryVbTakeover vb os s'; (some e :: rest.1, rest.2)

/-! ## What a call does -/

variable {c} {alive : Bool} {o : Outcomes} {vb : UInt16} {b : VbBlob} {s : TakeoverState}

/-- The switch goes on to the stream request only on a blob whose stream is not running or whose
owner the oracle reports dead. -/
theorem takeoverSwitch_startStream (h : c.takeoverSwitch alive vb b = .startStream) :
    b.dcpStreamStatus ≠ dcpStreamRunning ∨ alive = false := by
  unfold takeoverSwitch at h
  split_ifs at h with hrun _ hdead
  · exact .inr (by simpa using hdead.2.1)
  · exact .inl hrun

/-- On a stopped or uninitialised stream the switch goes on to the stream request. -/
theorem takeoverSwitch_of_not_running
    (h : b.dcpStreamStatus = dcpStreamStopped ∨ b.dcpStreamStatus = dcpStreamUninitialised) :
    c.takeoverSwitch alive vb b = .startStream := by
  have hr : b.dcpStreamStatus ≠ dcpStreamRunning := by
    rcases h with h | h <;> rw [h] <;> decide
  rw [takeoverSwitch, if_neg hr, if_pos h]

/-- On a blob recording this consumer as the running owner the switch returns nil at once. -/
theorem takeoverSwitch_of_started : c.takeoverSwitch alive vb (c.streamStarted b) = .returns none := by
  simp [takeoverSwitch, streamStarted]

/-- A call that passes the guard and returns nil, on a consumer of another node than the
previous owner, has downloaded that owner's timer directory and copied its records. -/
theorem updateVbOwnerAndStartDCPStream_transfers (h : s.vbStreamRequested = false)
    (hprev : c.uuid ≠ b.previousNodeUUID)
    (hnil : (c.updateVbOwnerAndStartDCPStream o vb b s).2 = none) :
    (c.updateVbOwnerAndStartDCPStream o vb b s).1.transfers = s.transfers ++
      [.downloadDir (timerDataPath b.previousEventingDir vb c.appName), .copyPlasmaRecords vb] := by
  unfold updateVbOwnerAndStartDCPStream at hnil ⊢
  simp only [h, hprev, bne_iff_ne, ne_eq, not_false_eq_true, if_true, Bool.false_eq_true,
    if_false] at hnil ⊢
  split_ifs at hnil ⊢
  simp_all

/-- A call on a vbucket already in `vbStreamRequested` changes nothing. -/
theorem doVbTakeover_of_requested (h : s.vbStreamRequested = true) :
    (c.doVbTakeover o vb s).1 = s := by
  unfold doVbTakeover
  split <;> simp [updateVbOwnerAndStartDCPStream, h]

/-- A call that finds the vbucket requested and the blob stopped returns nil at once. -/
theorem doVbTakeover_of_requested_stopped (h : s.vbStreamRequested = true)
    (hs : s.blob.dcpStreamStatus = dcpStreamStopped) : c.doVbTakeover o vb s = (s, none) := by
  simp [doVbTakeover, takeoverSwitch_of_not_running (.inl hs), updateVbOwnerAndStartDCPStream, h]

/-- Once a call of this consumer has opened the stream, every later call returns nil at once,
whatever its collaborators answer. -/
theorem doVbTakeover_of_started (hb : s.blob = c.streamStarted b) :
    c.doVbTakeover o vb s = (s, none) := by
  rw [doVbTakeover, hb, takeoverSwitch_of_started]

/-- After such a call, the retry loop stops at its next call with nil and no transfer. -/
theorem retryVbTakeover_of_started (hb : s.blob = c.streamStarted b) (os : List Outcomes) :
    c.retryVbTakeover vb (o :: os) s = ([none], s) := by
  simp only [retryVbTakeover, doVbTakeover_of_started hb]

/-- A stream request either changes nothing or opens the stream with the blob it is handed
naming this consumer. -/
theorem updateVbOwnerAndStartDCPStream_cases :
    (c.updateVbOwnerAndStartDCPStream o vb b s).1 = s ∨
      (c.updateVbOwnerAndStartDCPStream o vb b s).1.blob = c.streamStarted b ∧
        (c.updateVbOwnerAndStartDCPStream o vb b s).1.streamOpen = true := by
  unfold updateVbOwnerAndStartDCPStream
  split_ifs <;> simp

/-- A stream request past the guard that the DCP side accepts marks the vbucket and opens the
stream with the blob naming this consumer, whatever the dial and the copy answer. -/
theorem updateVbOwnerAndStartDCPStream_opens (h : s.vbStreamRequested = false)
    (ho : o.streamOk = true) :
    (c.updateVbOwnerAndStartDCPStream o vb b s).1.blob = c.streamStarted b ∧
      (c.updateVbOwnerAndStartDCPStream o vb b s).1.vbStreamRequested = true ∧
      (c.updateVbOwnerAndStartDCPStream o vb b s).1.streamOpen = true := by
  unfold updateVbOwnerAndStartDCPStream
  simp only [h, ho, Bool.not_true, Bool.false_eq_true, if_false]
  split_ifs <;> exact ⟨rfl, rfl, rfl⟩

/-- What a call can do: nothing, or, on a blob whose stream is not running or whose owner the
oracle reports dead, open this consumer's stream with the blob naming it. -/
theorem doVbTakeover_cases :
    (c.doVbTakeover o vb s).1 = s ∨
      (s.blob.dcpStreamStatus ≠ dcpStreamRunning ∨ o.alive = false) ∧
        (c.doVbTakeover o vb s).1.blob = c.streamStarted s.blob ∧
        (c.doVbTakeover o vb s).1.streamOpen = true := by
  unfold doVbTakeover
  cases hsw : c.takeoverSwitch o.alive vb s.blob with
  | startStream =>
    exact updateVbOwnerAndStartDCPStream_cases.imp_right fun h => ⟨takeoverSwitch_startStream hsw, h⟩
  | returns e => exact .inl rfl

/-- On a stopped or uninitialised stream a call goes straight to the stream request. -/
theorem doVbTakeover_of_not_running
    (h : s.blob.dcpStreamStatus = dcpStreamStopped ∨ s.blob.dcpStreamStatus = dcpStreamUninitialised) :
    c.doVbTakeover o vb s = c.updateVbOwnerAndStartDCPStream o vb s.blob s := by
  rw [doVbTakeover, takeoverSwitch_of_not_running h]

/-- A call past the guard whose stream request, dial and copy all succeed opens the stream,
records this consumer in the blob it is handed and makes the timer transfers of a node
change. -/
theorem updateVbOwnerAndStartDCPStream_ok (h : s.vbStreamRequested = false)
    (ho : o.streamOk = true ∧ o.dialOk = true ∧ o.copyOk = true) :
    c.updateVbOwnerAndStartDCPStream o vb b s =
      ({ s with
          vbStreamRequested := true, streamOpen := true, blob := c.streamStarted b
          transfers := s.transfers ++ if c.uuid = b.previousNodeUUID then [] else
            [.downloadDir (timerDataPath b.previousEventingDir vb c.appName), .copyPlasmaRecords vb] },
        none) := by
  obtain ⟨h₁, h₂, h₃⟩ := ho
  by_cases hp : c.uuid = b.previousNodeUUID <;>
    simp [updateVbOwnerAndStartDCPStream, h, h₁, h₂, h₃, hp]

/-- A retry whose first call opens the stream and then fails to dial the previous owner's RPC
server returns nil on its second call, and no timer data was ever transferred. -/
theorem retryVbTakeover_after_failed_dial :
    let c : Consumer := ⟨"uB", "worker_app_0", "b:8096", "app", "/b", ∅, ∅, ∅⟩
    let b : VbBlob := ⟨dcpStreamStopped, "", "", "", "uA", "worker_app_0", "/a", "a:8096"⟩
    c.retryVbTakeover 7 [⟨true, true, false, true⟩, ⟨true, true, true, true⟩] ⟨b, false, false, []⟩ =
      ([some .failedConnectRemoteRPC, none], ⟨c.streamStarted b, true, true, []⟩) := by
  decide

end Consumer

end Eventing
