import PhysicalAiRuntime.Foundations.PyError
import PhysicalAiRuntime.Foundations.Dict
import PhysicalAiRuntime.Foundations.Sort
import PhysicalAiRuntime.Foundations.Deque
import PhysicalAiRuntime.Foundations.Trace
import PhysicalAiRuntime.Foundations.Feed
import PhysicalAiRuntime.Foundations.Latest
import PhysicalAiRuntime.Foundations.SharedInput
import PhysicalAiRuntime.Foundations.Buffer
import PhysicalAiRuntime.Foundations.JsonText
import PhysicalAiRuntime.Foundations.Quintic
import PhysicalAiRuntime.Foundations.Monitor
import PhysicalAiRuntime.Foundations.Backlog
import PhysicalAiRuntime.Authority.Messages
import PhysicalAiRuntime.Authority.Client
import PhysicalAiRuntime.Config.Value
import PhysicalAiRuntime.Config.Profile
import PhysicalAiRuntime.Config.Accepted
import PhysicalAiRuntime.Config.Contracts
import PhysicalAiRuntime.Config.Closure
import PhysicalAiRuntime.Config.Canonical
import PhysicalAiRuntime.Config.ProfileHash
import PhysicalAiRuntime.Provider.Payload
import PhysicalAiRuntime.Provider.Client
import PhysicalAiRuntime.Provider.Dispatch
import PhysicalAiRuntime.Provider.SyncLoop
import PhysicalAiRuntime.Provider.Executions
import PhysicalAiRuntime.Provider.Outcome
import PhysicalAiRuntime.Provider.JointCommands
import PhysicalAiRuntime.Provider.Encoding
import PhysicalAiRuntime.Control.Session
import PhysicalAiRuntime.Control.System
import PhysicalAiRuntime.Control.Binding
import PhysicalAiRuntime.Control.Fencing
import PhysicalAiRuntime.Control.Stack
import PhysicalAiRuntime.Control.Entry
import PhysicalAiRuntime.Control.Scopes
import PhysicalAiRuntime.Control.Displacement
import PhysicalAiRuntime.Control.Exit
import PhysicalAiRuntime.Control.Ledger
import PhysicalAiRuntime.Control.Pacing
import PhysicalAiRuntime.Controller.TrajectoryGuard
import PhysicalAiRuntime.Controller.GuardSteps
import PhysicalAiRuntime.Controller.GuardLifetime
import PhysicalAiRuntime.Controller.DisarmSafety
import PhysicalAiRuntime.Recording.EpisodeScope
import PhysicalAiRuntime.Recording.Lifecycle
import PhysicalAiRuntime.Recording.MemoryBuffer
import PhysicalAiRuntime.Replay.Source
import PhysicalAiRuntime.Replay.Player
import PhysicalAiRuntime.Recovery.ExecutionManager
import PhysicalAiRuntime.Recovery.Startup
import PhysicalAiRuntime.Recovery.LiveOwners
import PhysicalAiRuntime.Recovery.Prepared
import PhysicalAiRuntime.Sensing.Sensor
import PhysicalAiRuntime.Sensing.Consumers
import PhysicalAiRuntime.Sensing.Readiness
import PhysicalAiRuntime.Sensing.RobotState
import PhysicalAiRuntime.MjpegCam.Jpeg
import PhysicalAiRuntime.MjpegCam.Device
import PhysicalAiRuntime.Process.Context
import PhysicalAiRuntime.Process.Shutdown
import PhysicalAiRuntime.Process.WaitReady
import PhysicalAiRuntime.Apps.Homing
import PhysicalAiRuntime.Apps.Teleop
import PhysicalAiRuntime.Apps.Stranding
import PhysicalAiRuntime.Apps.LeaderMode
import PhysicalAiRuntime.Apps.RecordLoop
import PhysicalAiRuntime.Apps.Dataset
import PhysicalAiRuntime.Apps.StopThreads
import PhysicalAiRuntime.Apps.QualityGate
import PhysicalAiRuntime.Apps.QuinticTransition
import PhysicalAiRuntime.Apps.McapTimeline
import PhysicalAiRuntime.Apps.ReplayTopics
import PhysicalAiRuntime.Apps.ReplayRate
import PhysicalAiRuntime.Apps.ReplaySession
import PhysicalAiRuntime.Apps.ReplayAlignment
import PhysicalAiRuntime.Fleet.System
import PhysicalAiRuntime.Fleet.Grants
import PhysicalAiRuntime.Fleet.Writers
import PhysicalAiRuntime.Fleet.Deployments
import PhysicalAiRuntime.Fleet.Overlap
import PhysicalAiRuntime.Fleet.Takeover
