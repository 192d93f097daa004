import AtlantisBackend.Coinbase.Service
import AtlantisBackend.Coinbase.Interleaving
import AtlantisBackend.Coinbase.Linearizability
import AtlantisBackend.Coinbase.Provenance
import AtlantisBackend.Coinbase.Outcomes
import AtlantisBackend.Coinbase.AcceptTxs
import AtlantisBackend.Lifecycle.Components
import AtlantisBackend.Lifecycle.Construction
import AtlantisBackend.Lifecycle.Shutdown
import AtlantisBackend.Metrics.MeteredStream
import AtlantisBackend.Metrics.LesStream
import AtlantisBackend.Api.Backends
import AtlantisBackend.Mobile.NewNode
