import Socksv5.Session.Closing
import Socksv5.Session.Fallback
import Socksv5.Session.Room
import Socksv5.Session.Teardown
import Socksv5.Session.Isolation
import Socksv5.Admin.AuthParser
import Socksv5.Authentication
import Socksv5.RequestDecoding
import Socksv5.Session.Requesting
import Socksv5.Selector.Representation
import Socksv5.Admin.List
import Socksv5.Admin.Removal
import Socksv5.Selector.Readiness
import Socksv5.Session.Framing
import Socksv5.Session.Progress
import Socksv5.Session.Forecast
import Socksv5.Session.Segmentation
import Socksv5.Pop3Dialogue
import Socksv5.Session.Callbacks
import Socksv5.Session.Resolver
import Socksv5.Session.WakeUp
import Socksv5.Admin.Connection
import Socksv5.Admin.Gate
import Socksv5.Admin.Answers
import Socksv5.Admin.PartialSend
import Socksv5.Admin.Lines
import Socksv5.Admin.Login
import Socksv5.Admin.UserTable
import Socksv5.Admin.Grammar
import Socksv5.Buffer.Fifo
import Socksv5.CredentialDecoding
import Socksv5.Session.Negotiation
import Socksv5.Admin.Appending
import Socksv5.Admin.BufferSize
import Socksv5.Pop3Bounds
import Socksv5.Pop3Chunks
import Socksv5.Server.Sessions
import Socksv5.Admin.Quiet
import Socksv5.Server.Accounting
import Socksv5.Server.Metering
import Socksv5.Server.Administrators
import Socksv5.Server.Descriptors
import Socksv5.Server.Shutdown
import Socksv5.Server.Lifetime
import Socksv5.Admin.Listing
import Socksv5.Client.Dialogue
import Socksv5.Client.Stores
import Socksv5.Pop3Keyword
import Socksv5.Selector.Growth
import Socksv5.Selector.Notifications
import Socksv5.Session.Conversation
import Socksv5.Session.Dissector
import Socksv5.Session.DissectedTraffic
import Socksv5.Session.RelayCalls
import Socksv5.Session.Leaks
import Socksv5.UserDeclaration
import Socksv5.Server.Proxy
