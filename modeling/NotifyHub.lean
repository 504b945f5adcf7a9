import NotifyHub.Lib.OMap
import NotifyHub.Lib.SortBy
import NotifyHub.Lib.Rows
import NotifyHub.Lib.Scan
import NotifyHub.Lib.Text
import NotifyHub.Lib.Run
import NotifyHub.Lib.Trace
import NotifyHub.Lib.Register
import NotifyHub.Lib.Json
import NotifyHub.Lib.Base64
import NotifyHub.Lib.Utf8
import NotifyHub.Lib.Surrogates
import NotifyHub.Lib.Digest
import NotifyHub.Lib.Stringify
import NotifyHub.Lib.Uri
import NotifyHub.Lib.Paths
import NotifyHub.Lib.Schema
import NotifyHub.Control.Types
import NotifyHub.Control.Registry
import NotifyHub.Control.Operations
import NotifyHub.Control.Moves
import NotifyHub.Control.Sockets
import NotifyHub.Control.Owners
import NotifyHub.Control.Ownership
import NotifyHub.Control.Directories
import NotifyHub.Control.Commands
import NotifyHub.Control.Outcomes
import NotifyHub.Control.OutcomeCache
import NotifyHub.Control.Tenants
import NotifyHub.Control.Isolation
import NotifyHub.Control.Requests
import NotifyHub.Control.StaleRequests
import NotifyHub.Control.Membership
import NotifyHub.Control.Tunnels
import NotifyHub.Control.TunnelIsolation
import NotifyHub.Control.TunnelExpiry
import NotifyHub.Control.CommandBodies
import NotifyHub.Contracts.Schemas
import NotifyHub.Contracts.Frames
import NotifyHub.Contracts.Events
import NotifyHub.Client.PendingResponse
import NotifyHub.Client.PendingController
import NotifyHub.Client.Submissions
import NotifyHub.Client.LoadOrder
import NotifyHub.Client.Credentials
import NotifyHub.Client.AuthInterceptor
import NotifyHub.Client.WsClient
import NotifyHub.Client.WebUiTunnel
import NotifyHub.Client.TunnelProgress
import NotifyHub.Client.Reassembly
import NotifyHub.Client.ActiveSessions
import NotifyHub.Plugin.PendingAdapter
import NotifyHub.Plugin.FirstSeen
import NotifyHub.Plugin.ControlChannel
import NotifyHub.Plugin.FrameParsers
import NotifyHub.Plugin.QuestionReply
import NotifyHub.Plugin.WebUiProxy
import NotifyHub.Plugin.WebUiAborts
import NotifyHub.Plugin.SnapshotFrames
import NotifyHub.Plugin.Queue
import NotifyHub.Plugin.Pump
import NotifyHub.Plugin.Delivery
import NotifyHub.Plugin.Config
import NotifyHub.Plugin.Sender
import NotifyHub.Plugin.Collections
import NotifyHub.Plugin.Events
import NotifyHub.Plugin.Normalize
import NotifyHub.Plugin.StateMachine
import NotifyHub.Plugin.Rounds
import NotifyHub.Plugin.MessageCache
import NotifyHub.Plugin.Summaries
import NotifyHub.Plugin.SessionRegistry
import NotifyHub.Plugin.Pipeline
import NotifyHub.Plugin.Envelope
import NotifyHub.Plugin.DisplayLine
import NotifyHub.Plugin.DispatchOrder
import NotifyHub.Plugin.Remote
import NotifyHub.Plugin.Timers
import NotifyHub.Plugin.Turns
import NotifyHub.Plugin.TimerState
import NotifyHub.Plugin.WorkingTime
import NotifyHub.Plugin.ActionPairs
import NotifyHub.Plugin.Exclusion
import NotifyHub.Plugin.Enqueued
import NotifyHub.Auth.Repository
import NotifyHub.Auth.Service
import NotifyHub.Auth.Rotation
import NotifyHub.Auth.Revocation
import NotifyHub.Auth.OneTimeCodes
import NotifyHub.Auth.IngestKeys
import NotifyHub.Events.Dedupe
import NotifyHub.Events.IngestAuth
import NotifyHub.Link.System
import NotifyHub.Link.Confirmed
import NotifyHub.Link.Collected
import NotifyHub.Link.Agreement
import NotifyHub.Link.Responses
import NotifyHub.Link.SessionView
import NotifyHub.Link.EventDelivery
import NotifyHub.Link.KeyRevocation
import NotifyHub.Plugin.SessionCatalog
import NotifyHub.Client.SessionCatalog
import NotifyHub.Client.DeletedSessions
import NotifyHub.Client.PinnedSessions
import NotifyHub.Client.DeleteRollback
import NotifyHub.Client.History
import NotifyHub.Client.ResilientHistory
import NotifyHub.Client.InstancePresence
import NotifyHub.Client.ForgottenInstances
import NotifyHub.Client.FcmService
import NotifyHub.Lib.Replace
import NotifyHub.Plugin.SafeLogger
import NotifyHub.Lib.Percent
import NotifyHub.Lib.JsonParse
import NotifyHub.Lib.Sizes
import NotifyHub.Plugin.V2Api
import NotifyHub.Plugin.V2Forms
import NotifyHub.Plugin.V2Commands
import NotifyHub.Lib.Fill
import NotifyHub.Plugin.SharedCatalog
import NotifyHub.Plugin.V2Catalog
import NotifyHub.Plugin.Catalogs
import NotifyHub.Realtime.ConnectionRegistry
import NotifyHub.Client.HistoryController
import NotifyHub.Client.NotificationRouter
import NotifyHub.Client.Alerts
import NotifyHub.Push.Payload
import NotifyHub.Push.Devices
import NotifyHub.Push.Dispatcher
import NotifyHub.Push.DispatchTrace
import NotifyHub.Plugin.Lifecycle
import NotifyHub.Plugin.LifecycleTrace
