import PhotonValence.Transition.Guard
import PhotonValence.Register.Greatest
import PhotonValence.Register.Least
import PhotonValence.Slots.Update
import PhotonValence.Register.OnceLock
import PhotonValence.Utf8.Fit
import PhotonValence.Handler.Registry
import PhotonValence.Executor.Pairs
import PhotonValence.Executor.Ledger
import PhotonValence.Executor.Order
import PhotonValence.Executor.Watermark
import PhotonValence.Executor.Continue
import PhotonValence.Executor.Advance
import PhotonValence.Executor.Store
import PhotonValence.Executor.RoundTrip
import PhotonValence.Executor.Resume
import PhotonValence.Photon.Broker
import PhotonValence.Executor.Live
import PhotonValence.Executor.Window
import PhotonValence.Executor.Routing
import PhotonValence.Executor.Conservation
import PhotonValence.Executor.Abort
import PhotonValence.Identity.ProcessFactory
import PhotonValence.Identity.Reconstruct
import PhotonValence.Runtime.Process
import PhotonValence.Runtime.Trust
import PhotonValence.Executor.Isolation
import PhotonValence.Executor.Backpressure
import PhotonValence.Executor.Ephemeral
import PhotonValence.Runtime.Boot
import PhotonValence.Runtime.History
import PhotonValence.Executor.Outcome
import PhotonValence.Executor.Accounted
import PhotonValence.Identity.Agreement
import PhotonValence.Handler.Representation
import PhotonValence.Telemetry.Truncate
import PhotonValence.Executor.Delivery
import PhotonValence.Executor.Deployment
import PhotonValence.Executor.AtLeastOnce
import PhotonValence.Executor.Redelivery
import PhotonValence.Executor.Drain
import PhotonValence.Executor.Fifo
import PhotonValence.Executor.Serial
import PhotonValence.Executor.OneWorker
import PhotonValence.Transition.View
import PhotonValence.Telemetry.OpsLog
import PhotonValence.Executor.StreamErrors
import PhotonValence.Executor.Work
import PhotonValence.Executor.Recovery
import PhotonValence.Executor.LinkOrder
import PhotonValence.Executor.Hung
import PhotonValence.Executor.Batch
import PhotonValence.Executor.Determined
import PhotonValence.Executor.Alone
