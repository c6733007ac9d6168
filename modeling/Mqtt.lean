import Mqtt.Address
import Mqtt.Broker.Host
import Mqtt.Client.Calls
import Mqtt.Config
import Mqtt.Connection
import Mqtt.Frame.Assembler
import Mqtt.Frame.View
import Mqtt.Message
import Mqtt.Packet.Decode
import Mqtt.Simulation.Command
import Mqtt.Topic.Index
import Mqtt.Proofs.Lookup
import Mqtt.Proofs.Address
import Mqtt.Proofs.Writer
import Mqtt.Proofs.Field
import Mqtt.Proofs.Field.Cursor
import Mqtt.Proofs.RemainingLength
import Mqtt.Proofs.RemainingLength.Spelling
import Mqtt.Proofs.Frame
import Mqtt.Proofs.Frame.Assembler
import Mqtt.Proofs.Frame.Forwarding
import Mqtt.Proofs.Frame.Writing
import Mqtt.Proofs.Frame.Reading
import Mqtt.Proofs.Frame.Bounds
import Mqtt.Proofs.Frame.Segments
import Mqtt.Proofs.Frame.Pieces
import Mqtt.Proofs.Topic
import Mqtt.Proofs.Topic.Index
import Mqtt.Proofs.Topic.Matching
import Mqtt.Proofs.Topic.Trim
import Mqtt.Proofs.Topic.Cut
import Mqtt.Proofs.Topic.Shape
import Mqtt.Proofs.Packet.Wire
import Mqtt.Proofs.Packet.RoundTrip
import Mqtt.Proofs.Packet.Canonical
import Mqtt.Proofs.Packet.Filters
import Mqtt.Proofs.Packet.InPlace
import Mqtt.Proofs.Packet.Versions
import Mqtt.Proofs.Packet.Parts
import Mqtt.Proofs.Stream.Sending
import Mqtt.Proofs.Stream.Lane
import Mqtt.Proofs.Stream.Lines
import Mqtt.Proofs.Broker.Moves
import Mqtt.Proofs.Broker.Conns
import Mqtt.Proofs.Broker.Runs
import Mqtt.Proofs.Broker.Work
import Mqtt.Proofs.Broker.Effects
import Mqtt.Proofs.Broker.Lanes
import Mqtt.Proofs.Broker.Framing
import Mqtt.Proofs.Broker.Filters
import Mqtt.Proofs.Broker.Intake
import Mqtt.Proofs.Broker.Registry
import Mqtt.Proofs.Broker.History
import Mqtt.Proofs.Broker.Advances
import Mqtt.Proofs.Broker.Rounds
import Mqtt.Proofs.Broker.Arrivals
import Mqtt.Proofs.Broker.FanOut
import Mqtt.Proofs.Broker.Lines
import Mqtt.Proofs.Broker.Turns
import Mqtt.Proofs.Broker.Reads
import Mqtt.Proofs.Broker.Replies
import Mqtt.Proofs.Broker.Answers
import Mqtt.Proofs.Broker.Conversation
import Mqtt.Proofs.Broker.Callbacks
import Mqtt.Proofs.Broker.Membership
import Mqtt.Proofs.Broker.Quiescence
import Mqtt.Proofs.Client.Moves
import Mqtt.Proofs.Client.Calls
import Mqtt.Proofs.Client.PacketIds
import Mqtt.Proofs.Client.Filters
import Mqtt.Proofs.Client.Waiting
import Mqtt.Proofs.Client.Parties
import Mqtt.Proofs.Client.Lane
import Mqtt.Proofs.Client.Requests
import Mqtt.Proofs.Client.Active
import Mqtt.Proofs.Client.Subscribing
import Mqtt.Proofs.Client.Runs
import Mqtt.Proofs.Client.Events
import Mqtt.Proofs.Client.Farewell
import Mqtt.Proofs.Client.Lines
import Mqtt.Proofs.Client.Quiescence
import Mqtt.Proofs.Client.Journal
import Mqtt.Proofs.Client.Turns
import Mqtt.Proofs.Client.Transcript
import Mqtt.Proofs.Client.Intake
import Mqtt.Proofs.Client.Inbox
import Mqtt.Proofs.Client.Receipts
import Mqtt.Proofs.Pair.Runs
import Mqtt.Proofs.Pair.Delivery
import Mqtt.Proofs.Pair.Agreement
import Mqtt.Proofs.Broker.KeepAlive
import Mqtt.Proofs.Broker.Latecomers
import Mqtt.Proofs.Broker.Forwarding
import Mqtt.Proofs.Broker.Routing
import Mqtt.Proofs.Broker.Results
import Mqtt.Proofs.Broker.Publishing
import Mqtt.Proofs.Field.Cursor
