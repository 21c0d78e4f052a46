import Rousette.Auth.Nacm
import Rousette.Auth.PAM
import Rousette.Restconf.InactiveSubscriptions
import Rousette.Library.Program
import Rousette.Library.Tree
import Rousette.Libyang.Data
import Rousette.Libyang.Calls
import Rousette.Restconf.Locations
import Rousette.Restconf.UriGrammar
import Rousette.Restconf.Uri
import Rousette.Restconf.Server.Response
import Rousette.Restconf.Server.Edit
import Rousette.Restconf.Server.Write
import Rousette.Restconf.Server.Reporting
import Rousette.Restconf.Server.Atomicity
import Rousette.Restconf.Server.Handover
import Rousette.Restconf.Server.ControlMetas
import Rousette.Restconf.Server.CreatedEdit
import Rousette.Restconf.UriPaths
import Rousette.Restconf.Server.KeyChecks
import Rousette.Restconf.UriErrors
import Rousette.Restconf.Server.KeyEscaping
import Rousette.Restconf.Server.Orderly
import Rousette.Restconf.Server.Failures
import Rousette.Restconf.Server.Containment
import Rousette.Restconf.Server.Resources
import Rousette.Restconf.Server.Answers
import Rousette.Restconf.Server.Confinement
import Rousette.Restconf.Server.WriteConfinement
import Rousette.Restconf.SubscriptionLifecycle
import Rousette.Restconf.InactivityExpiry
import Rousette.Restconf.SubscriptionIsolation
import Rousette.Library.Chunk
import Rousette.Http.EventDelivery
import Rousette.Restconf.NotificationWaits
import Rousette.Library.Recognition
import Rousette.Restconf.UriPhrases
import Rousette.Restconf.UriRecognition
import Rousette.Restconf.QueryPhrases
import Rousette.Restconf.QueryValues
import Rousette.Restconf.QueryRecognition
import Rousette.Restconf.FieldsPaths
import Rousette.Restconf.DataPaths
import Rousette.Restconf.SchemaResolution
import Rousette.Restconf.UriJoin
import Rousette.Restconf.PercentDecoding
import Rousette.Restconf.Server.PatchPoints
import Rousette.Restconf.Server.AllowedMethods
import Rousette.Http.AcceptHeader
import Rousette.Restconf.DataFormats
import Rousette.Restconf.Server.EditAttribution
import Rousette.Restconf.Server.Operations
import Rousette.Restconf.Server.InsertionPoints
import Rousette.Auth.BasicEncoding
import Rousette.Http.MediaRanges
import Rousette.Restconf.ContentNegotiation
import Rousette.Restconf.ExcludedFormats
import Rousette.Restconf.QueryAccess
import Rousette.Restconf.RequestClassification
import Rousette.Restconf.Server.PatchDetection
import Rousette.Restconf.StreamTimes
import Rousette.Auth.DelayedError
import Rousette.Restconf.SubscriptionRemoval
import Rousette.Http.EventFraming
import Rousette.Http.ForwardedHeader
import Rousette.Library.Loop
import Rousette.Library.Positional
import Rousette.Restconf.StreamUris
import Rousette.Sr.AllEvents
import Rousette.Library.Viability
import Rousette.Restconf.QueryViability
import Rousette.Restconf.SchemaUrls
import Rousette.Http.EventReception
import Rousette.Library.Triple
import Rousette.Restconf.NotificationDelivery
import Rousette.Restconf.NotificationStreams
import Rousette.Restconf.Server.Accounting
import Rousette.Restconf.Server.Streams
import Rousette.Sr.OpticalEvents
import Rousette.Restconf.Server.ConcurrentWrites
import Rousette.Restconf.Server.SubscriptionRpcs
import Rousette.Auth.Access
import Rousette.Restconf.Server.Schemas
import Rousette.Restconf.Server.StreamList
import Rousette.Restconf.Server.FieldReads
