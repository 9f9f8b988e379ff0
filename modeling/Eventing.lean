import Eventing.Go
import Eventing.Producer.NodeAssignment
import Eventing.Producer.WorkerAssignment
import Eventing.Producer.Depcfg
import Eventing.Consumer.Ownership
import Eventing.Consumer.Takeover
import Eventing.Consumer.StreamGuard
import Eventing.Consumer.FanOut
import Eventing.Flatbuffers.Bytes
import Eventing.Flatbuffers.Builder
import Eventing.Flatbuffers.Table
import Eventing.Flatbuffers.Object
import Eventing.Flatbuffers.Fields
import Eventing.Flatbuffers.Vectors
import Eventing.Consumer.Ipc
import Eventing.Consumer.Frames
import Eventing.Consumer.ThrMap
import Eventing.Consumer.Handoff
import Eventing.Tools.GetVbEventingAssignment
