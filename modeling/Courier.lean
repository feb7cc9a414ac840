import Courier.Address
import Courier.Command
import Courier.Daemon.Handler
import Courier.Daemon.LogFilter
import Courier.Daemon.Options
import Courier.Daemon.Recorder
import Courier.Daemon.Reply
import Courier.Daemon.Service
import Courier.Daemon.Station
import Courier.Decimal.Fixed
import Courier.Decimal.Shortest
import Courier.Files.Path
import Courier.Files.Handle
import Courier.Files.Volume
import Courier.Ids
import Courier.Json.Basic
import Courier.Json.Forms
import Courier.Json.Reader
import Courier.Json.Schema
import Courier.LogLevel
import Courier.Main
import Courier.Network.Event
import Courier.Network.Hub
import Courier.Network.SavedNode
import Courier.Network.Wire
import Courier.Settings.Basic
import Courier.Settings.File
import Courier.Settings.Window
import Courier.Text.Blank
import Courier.Text.Digest
import Courier.Text.Glyph
import Courier.Text.Hex
import Courier.Text.Quoted
import Courier.Toml.Decode
import Courier.Toml.Reader
import Courier.Toml.Value
import Courier.Toml.Writer
import Courier.Transfer.Engine
import Courier.Transfer.Offering
import Courier.Transfer.Error
import Courier.Transfer.FileState
import Courier.Transfer.Progress
import Courier.Transfer.Source
import Courier.Transfer.Summary
import Courier.Transport.Bridge
import Courier.Transport.Error
import Courier.Transport.SaveFile
import Courier.Transport.Scripted
import Courier.Transport.Window
import Courier.Transport.Pump
import Courier.Proofs.TransferFrame
import Courier.Proofs.HeldReplay
import Courier.Proofs.PumpDelivery
import Courier.Proofs.EngineSteps
import Courier.Proofs.FlowPulls
import Courier.Proofs.Transit
import Courier.Proofs.PairViews
import Courier.Proofs.NetworkRuns
import Courier.Proofs.WindowCalls
import Courier.Transfer.Pair
import Courier.Proofs.FlowCompletion
import Courier.Proofs.PairNetwork
import Courier.Proofs.ShipmentSteps
import Courier.Proofs.ShipmentRuns
import Courier.Proofs.AddressText
import Courier.Proofs.EngineContract
import Courier.Proofs.CommandTrust
import Courier.Proofs.FlowNotices
import Courier.Proofs.FlowEnds
import Courier.Proofs.RepeatedOffers
import Courier.Proofs.WindowAnswers
import Courier.Proofs.CursorSync
import Courier.Proofs.PullRuns
import Courier.Proofs.AddressFaults
import Courier.Proofs.CommandLines
import Courier.Proofs.ChunkRange
import Courier.Proofs.SavedText
import Courier.Proofs.NodeRestore
import Courier.Proofs.OfferedNames
import Courier.Proofs.OfferReports
import Courier.Proofs.ProgressMarks
import Courier.Proofs.WindowSlots
import Courier.Proofs.OpeningOrder
import Courier.Proofs.FileWorker
import Courier.Proofs.PumpRefinement
