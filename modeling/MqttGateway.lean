import MqttGateway.Main
import MqttGateway.Json.Printer
import MqttGateway.Proofs.Frame.Framing
import MqttGateway.Proofs.Gateway.Admission
import MqttGateway.Proofs.Packet.WireForm
import MqttGateway.Proofs.Relay.Leaving
import MqttGateway.Proofs.Relay.Publishing
import MqttGateway.Proofs.Revocation.Lists
import MqttGateway.Proofs.Revocation.Responses
import MqttGateway.Proofs.Tls.Lookalikes
import MqttGateway.Proofs.Topic.AskingAgain
import MqttGateway.Proofs.Topic.Covering
import MqttGateway.Proofs.Topic.Placeholders
import MqttGateway.Proofs.Frame.Editing
import MqttGateway.Proofs.Relay.Notices
import MqttGateway.Proofs.Relay.Mirroring
import MqttGateway.Proofs.Relay.Concluding
import MqttGateway.Proofs.Relay.FirstExit
import MqttGateway.Proofs.Packet.Decoded
import MqttGateway.Proofs.Frame.Rewriting
import MqttGateway.Proofs.Packet.Overrun
import MqttGateway.Proofs.Relay.Crashing
import MqttGateway.Proofs.Relay.Draining
import MqttGateway.Proofs.Relay.Foresight
import MqttGateway.Proofs.Relay.Chunking
import MqttGateway.Proofs.Relay.Transparency
import MqttGateway.Proofs.Access.Granting
import MqttGateway.Proofs.Relay.Delivering
import MqttGateway.Proofs.Relay.Introducing
import MqttGateway.Proofs.Access.Priorities
import MqttGateway.Proofs.Revocation.Consulting
import MqttGateway.Proofs.Relay.Unsubscribing
import MqttGateway.Proofs.Settings.Loading
import MqttGateway.Proofs.Relay.Accounting
import MqttGateway.Proofs.Relay.Preserving
import MqttGateway.Proofs.Relay.Substituting
import MqttGateway.Proofs.Relay.Finishing
import MqttGateway.Proofs.Access.Exactness
import MqttGateway.Proofs.Revocation.Representations
import MqttGateway.Proofs.Tls.Leading
import MqttGateway.Proofs.Revocation.Arranging
import MqttGateway.Proofs.Revocation.Reporting
import MqttGateway.Proofs.Packet.Sizes
import MqttGateway.Proofs.Settings.Overlaying
import MqttGateway.Proofs.Revocation.Requests
