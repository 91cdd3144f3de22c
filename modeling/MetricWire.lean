import MetricWire.Server
import MetricWire.Session.Run
import MetricWire.Text.FormatSpec
import MetricWire.Proofs.Client.Traffic
import MetricWire.Proofs.Packet.Reading
import MetricWire.Proofs.Client.Lifetime
import MetricWire.Proofs.Client.Inactive
import MetricWire.Proofs.Client.Encoding
import MetricWire.Proofs.Sink.Accounting
import MetricWire.Proofs.Binary.Grid
import MetricWire.Proofs.Binary.Text
import MetricWire.Proofs.Packet.Float
import MetricWire.Proofs.Sink.Queue
import MetricWire.Proofs.Binary.Round
import MetricWire.Proofs.Client.Options
import MetricWire.Proofs.Sink.Destination
import MetricWire.Proofs.Decimal.Expansion
import MetricWire.Proofs.Packet.Duration
import MetricWire.Proofs.Decimal.Reader
import MetricWire.Proofs.Packet.Clauses
import MetricWire.Proofs.Address.Canonical
import MetricWire.Proofs.Address.Numbers
import MetricWire.Proofs.Packet.Gauge
import MetricWire.Proofs.Address.Literal
import MetricWire.Proofs.Sink.Constructors
import MetricWire.Proofs.Packet.Raw
import MetricWire.Proofs.Server.Delivery
import MetricWire.Proofs.Client.Scopes
import MetricWire.Proofs.Client.Description
import MetricWire.Proofs.Client.Counters
import MetricWire.Proofs.Text.Layout
import MetricWire.Proofs.Sampler.Draws
