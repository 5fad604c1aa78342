import NodeGraph.Graph.Middleware
import NodeGraph.Graph.Teardown
import NodeGraph.Main
import NodeGraph.World.Spin
import NodeGraph.Proofs.Calls.Courses
import NodeGraph.Proofs.Audit.Ledger
import NodeGraph.Proofs.Audit.Run
import NodeGraph.Proofs.Audit.Handling
import NodeGraph.Proofs.Audit.Beat
import NodeGraph.Proofs.Audit.Numbers
import NodeGraph.Proofs.Registry.Tables
import NodeGraph.Proofs.Delivery.Feeds
import NodeGraph.Proofs.Delivery.Watch
import NodeGraph.Proofs.Delivery.Guarantee
import NodeGraph.Proofs.Delivery.Room
import NodeGraph.Proofs.Delivery.Race
import NodeGraph.Proofs.Delivery.Shelf
import NodeGraph.Proofs.Registry.Typed
import NodeGraph.Proofs.Registry.Shutdown
import NodeGraph.Proofs.Registry.Refusal
import NodeGraph.Proofs.Registry.Founding
import NodeGraph.Proofs.Registry.Admission
import NodeGraph.Proofs.Registry.Erasure
import NodeGraph.Proofs.Registry.Forfeit
import NodeGraph.Proofs.Naming.Anonymous
import NodeGraph.Proofs.Wire.Characters
import NodeGraph.Proofs.Wire.Faithful
import NodeGraph.Proofs.Wire.Payloads
import NodeGraph.Proofs.Signal.Station
import NodeGraph.Proofs.Signal.Lawful
import NodeGraph.Proofs.Signal.Pickup
import NodeGraph.Proofs.Signal.Picking
import NodeGraph.Proofs.Addition.Errand
import NodeGraph.Proofs.Addition.Calls
import NodeGraph.Proofs.Addition.Operands
import NodeGraph.Proofs.Delivery.Records
import NodeGraph.Proofs.Calls.Exits
import NodeGraph.Proofs.Listening.Audience
import NodeGraph.Proofs.Listening.Loops
import NodeGraph.Proofs.Listening.Flow
import NodeGraph.Proofs.Listening.Logged
import NodeGraph.Proofs.Listening.Scene
import NodeGraph.Proofs.Listening.Relay
import NodeGraph.Proofs.Listening.Playing
import NodeGraph.Proofs.Listening.Chatter
import NodeGraph.Proofs.Talking.Spins
import NodeGraph.Proofs.Talking.Sessions
import NodeGraph.Proofs.Wire.Fields
import NodeGraph.Proofs.Naming.Lookup
import NodeGraph.Proofs.Teardown.Settling
import NodeGraph.Proofs.Naming.Global
import NodeGraph.Proofs.Naming.Spaces
import NodeGraph.Proofs.Clients.Lasting
import NodeGraph.Proofs.Clients.Mastered
import NodeGraph.Proofs.Clients.Estate
import NodeGraph.Proofs.Clients.Afterlife
import NodeGraph.Proofs.Calls.Agreement
