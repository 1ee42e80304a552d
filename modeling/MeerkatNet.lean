import MeerkatNet.Foundations.Machine
import MeerkatNet.Foundations.Entries
import MeerkatNet.Foundations.Pipe
import MeerkatNet.Foundations.KeyedQueues
import MeerkatNet.Foundations.SlashText
import MeerkatNet.Foundations.Framing
import MeerkatNet.Foundations.ChunkedInput
import MeerkatNet.Foundations.JsonText
import MeerkatNet.Foundations.JsonNesting
import MeerkatNet.Foundations.TaggedData
import MeerkatNet.Foundations.TaggedJson
import MeerkatNet.Foundations.HexText
import MeerkatNet.Foundations.Picks
import MeerkatNet.Foundations.Ownership
import MeerkatNet.Libp2p.Multiaddr
import MeerkatNet.Libp2p.AddressText
import MeerkatNet.V2.Types
import MeerkatNet.V2.Protocol
import MeerkatNet.V2.Json
import MeerkatNet.V2.Derive
import MeerkatNet.V2.Translation
import MeerkatNet.V2.EventLoop
import MeerkatNet.V2.Streams
import MeerkatNet.V2.CutFrames
import MeerkatNet.V2.World
import MeerkatNet.V2.SendSteps
import MeerkatNet.V2.Stalls
import MeerkatNet.V2.Outboxes
import MeerkatNet.V2.SwarmSteps
import MeerkatNet.V2.PendingSends
import MeerkatNet.V2.PendingDials
import MeerkatNet.V2.Presence
import MeerkatNet.V2.ListenSteps
import MeerkatNet.V2.ListenWork
import MeerkatNet.V2.Actor
import MeerkatNet.V2.NodeSteps
import MeerkatNet.V2.ListenReplies
import MeerkatNet.V2.RelayListens
import MeerkatNet.V2.LocalAddresses
import MeerkatNet.V2.CommandReplies
import MeerkatNet.V2.MessageIds
import MeerkatNet.V2.Contract
import MeerkatNet.V2.Conformance
import MeerkatNet.V2.HandOffOrder
import MeerkatNet.V2.Readers
import MeerkatNet.V2.Pair
import MeerkatNet.V2.Delivery
import MeerkatNet.V2.SendOrder
import MeerkatNet.V2.Ordering
import MeerkatNet.V2.Network
import MeerkatNet.V2.Progress
import MeerkatNet.V2.EndToEnd
import MeerkatNet.V2.Mock
import MeerkatNet.V2.MockIdentity
import MeerkatNet.V2.MockDelivery
import MeerkatNet.V2.MockFailures
import MeerkatNet.V2.MockConformance
import MeerkatNet.V2.FailedAddresses
import MeerkatNet.V2.Destinations
import MeerkatNet.V2.Circuits
import MeerkatNet.V1.Types
import MeerkatNet.V1.Protocol
import MeerkatNet.V1.EventLoop
import MeerkatNet.V1.Wire
import MeerkatNet.V1.Lockstep
import MeerkatNet.V1.Node
import MeerkatNet.V1.ListenSteps
import MeerkatNet.V1.ListenCalls
import MeerkatNet.V1.NodeLockstep
import MeerkatNet.V1.Destinations
import MeerkatNet.V1.Mock
import MeerkatNet.V1.MockOutcomes
import MeerkatNet.V1.MockAddresses
import MeerkatNet.Ping.Messages
import MeerkatNet.Ping.Session
import MeerkatNet.Ping.Exchange
import MeerkatNet.Ping.SendPings
import MeerkatNet.Ping.Connect
import MeerkatNet.Ping.Browser
