import SignalRoute.Host
import SignalRoute.Settings.File
import SignalRoute.Proofs.Codec.Stability
import SignalRoute.Proofs.Link.Ordering
import SignalRoute.Proofs.Host.Lossless
import SignalRoute.Proofs.Log.Leftovers
import SignalRoute.Proofs.Log.Reconstruction
import SignalRoute.Proofs.Host.Addresses
import SignalRoute.Proofs.Host.Naming
import SignalRoute.Proofs.Host.Registry
import SignalRoute.Proofs.Host.Resumption
import SignalRoute.Proofs.Host.Crediting
import SignalRoute.Proofs.Log.Pairing
import SignalRoute.Proofs.Log.Ticking
import SignalRoute.Proofs.Host.Decoding
import SignalRoute.Proofs.Host.Passing
import SignalRoute.Proofs.Host.Feeding
import SignalRoute.Proofs.Route.Editing
import SignalRoute.Proofs.Route.Appending
import SignalRoute.Proofs.Route.Storing
import SignalRoute.Proofs.Host.Describing
import SignalRoute.Proofs.Signal.Fitting
import SignalRoute.Proofs.Host.Fitting
import SignalRoute.Proofs.Signal.Roots
import SignalRoute.Proofs.Log.Asking
import SignalRoute.Proofs.Log.Covering
import SignalRoute.Proofs.Log.Walking
import SignalRoute.Proofs.Log.Completeness
import SignalRoute.Proofs.Route.Backward
import SignalRoute.Proofs.Route.Indexing
import SignalRoute.Proofs.Codec.Integers
import SignalRoute.Proofs.Signal.WellFormed
import SignalRoute.Proofs.Host.Handback
import SignalRoute.Proofs.Host.Accounting
