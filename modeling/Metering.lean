import Metering.Export.Log
import Metering.File.Tree
import Metering.Main
import Metering.Place
import Metering.Proofs.Aggregate.Bounds
import Metering.Proofs.Aggregate.Histogram.Integers
import Metering.Proofs.Aggregate.Kinds
import Metering.Proofs.Aggregate.Order
import Metering.Proofs.Aggregate.Parts
import Metering.Proofs.Aggregate.Run
import Metering.Proofs.Aggregate.Shape
import Metering.Proofs.Aggregate.Sketch.Accuracy
import Metering.Proofs.Aggregate.Sketch.Bookkeeping
import Metering.Proofs.CommandLine
import Metering.Proofs.Configuration
import Metering.Proofs.Conservation
import Metering.Proofs.Export.Framing
import Metering.Proofs.Exports
import Metering.Proofs.Inert
import Metering.Proofs.Instrument.Local
import Metering.Proofs.Labels
import Metering.Proofs.Lifecycle
import Metering.Proofs.Moments
import Metering.Proofs.Pipeline
import Metering.Proofs.Processor.Accrual
import Metering.Proofs.Processor.Configured
import Metering.Proofs.Processor.Refusal
import Metering.Proofs.Processor.Stateless
import Metering.Proofs.Provider.Commuting
import Metering.Proofs.Provider.Numbered
import Metering.Proofs.Provider.OneShot
import Metering.Proofs.Provider.Without
import Metering.Proofs.Reclaim
import Metering.Proofs.Registration
import Metering.Proofs.Registry
import Metering.Proofs.Schedule
import Metering.Proofs.Totals
import Metering.Proofs.Workload.Counters
import Metering.Proofs.Workload.Output
import Metering.Proofs.Workload.Reader
import Metering.Proofs.Workload.Totals
import Metering.Sample
