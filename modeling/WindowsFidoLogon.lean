import WindowsFidoLogon.Library.Program
import WindowsFidoLogon.Library.Text
import WindowsFidoLogon.Library.Json
import WindowsFidoLogon.Library.JsonText
import WindowsFidoLogon.Library.History
import WindowsFidoLogon.Library.Keyed
import WindowsFidoLogon.Library.ByteOrder
import WindowsFidoLogon.Library.Block
import WindowsFidoLogon.Model.Types
import WindowsFidoLogon.Model.Platform
import WindowsFidoLogon.Model.Convert
import WindowsFidoLogon.Model.FidoVerifier
import WindowsFidoLogon.Model.LocalAccount
import WindowsFidoLogon.Model.Machine
import WindowsFidoLogon.Model.RegistryReader
import WindowsFidoLogon.Model.LocalCredentialStore
import WindowsFidoLogon.Model.BrokerService
import WindowsFidoLogon.Model.Reference
import WindowsFidoLogon.Model.Scenario
import WindowsFidoLogon.Model.BrokerClient
import WindowsFidoLogon.Model.BrokerPipe
import WindowsFidoLogon.Model.CCredential
import WindowsFidoLogon.Model.FIDODevice
import WindowsFidoLogon.Model.Helpers
import WindowsFidoLogon.Model.CProvider
import WindowsFidoLogon.Codec.Base64
import WindowsFidoLogon.Codec.Canonical
import WindowsFidoLogon.Codec.Verifier
import WindowsFidoLogon.Codec.CoseKey
import WindowsFidoLogon.Codec.Attested
import WindowsFidoLogon.Codec.NonTransferable
import WindowsFidoLogon.Store.Validity
import WindowsFidoLogon.Store.PublishedPolicy
import WindowsFidoLogon.Store.RegistryList
import WindowsFidoLogon.Store.Steps
import WindowsFidoLogon.Store.Progress
import WindowsFidoLogon.Store.SavePoints
import WindowsFidoLogon.Store.Seal
import WindowsFidoLogon.Store.Accounts
import WindowsFidoLogon.Store.SaveAtomic
import WindowsFidoLogon.Store.Creation
import WindowsFidoLogon.Store.SaveWindow
import WindowsFidoLogon.Store.PolicyReaders
import WindowsFidoLogon.Store.SaveFiles
import WindowsFidoLogon.Store.Stored
import WindowsFidoLogon.Store.RoundTrip
import WindowsFidoLogon.Store.Sparing
import WindowsFidoLogon.Store.Refresh
import WindowsFidoLogon.Store.Fallback
import WindowsFidoLogon.Broker.Totality
import WindowsFidoLogon.Broker.ReplySize
import WindowsFidoLogon.Broker.Handling
import WindowsFidoLogon.Broker.Sessions
import WindowsFidoLogon.Broker.Run
import WindowsFidoLogon.Broker.FinishAuth
import WindowsFidoLogon.Broker.Finishing
import WindowsFidoLogon.Broker.Changes
import WindowsFidoLogon.Broker.Refusals
import WindowsFidoLogon.Broker.AccountChanges
import WindowsFidoLogon.Broker.Authorized
import WindowsFidoLogon.Broker.Counters
import WindowsFidoLogon.Broker.Tables
import WindowsFidoLogon.Broker.Survival
import WindowsFidoLogon.Broker.FailClosed
import WindowsFidoLogon.Broker.Invariants
import WindowsFidoLogon.Broker.Replies
import WindowsFidoLogon.Broker.SessionRuns
import WindowsFidoLogon.Broker.Wire
import WindowsFidoLogon.Credential.Events
import WindowsFidoLogon.Credential.Ceremony
import WindowsFidoLogon.Credential.Identity
import WindowsFidoLogon.Credential.Reset
import WindowsFidoLogon.Credential.Enumeration
import WindowsFidoLogon.Credential.TouchSelection
import WindowsFidoLogon.Credential.PackedBlobs
import WindowsFidoLogon.System.SignIn
import WindowsFidoLogon.System.Pipe
import WindowsFidoLogon.System.PipeReplies
import WindowsFidoLogon.System.Transport
