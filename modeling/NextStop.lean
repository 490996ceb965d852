import NextStop.Engine.Service
import NextStop.Main
import NextStop.Proofs.StableSort
import NextStop.Proofs.Scalar
import NextStop.Proofs.Board.Agreement
import NextStop.Proofs.Board.Installed
import NextStop.Proofs.Passage.Course
import NextStop.Proofs.Statistics.WriteOrder
import NextStop.Proofs.Statistics.Ledger
import NextStop.Proofs.Statistics.LedgerAnswers
import NextStop.Proofs.Engine.Calls
import NextStop.Proofs.Engine.Coherence
import NextStop.Proofs.Records.Backlog
import NextStop.Proofs.Records.Turnover
import NextStop.Proofs.Records.Survivors
import NextStop.Proofs.Records.Shutdown
import NextStop.Proofs.Text.Dates
import NextStop.Proofs.Files.EventRows
import NextStop.Proofs.Files.WrittenHistory
import NextStop.Proofs.Statistics.EventOrder
import NextStop.Proofs.Statistics.Histories
import NextStop.Proofs.Engine.Histories
import NextStop.Proofs.Engine.Steps
import NextStop.Proofs.Engine.Watch
import NextStop.Proofs.Engine.Silence
import NextStop.Proofs.Engine.Polling
import NextStop.Proofs.Engine.Rejection
import NextStop.Proofs.Engine.StatusLog
import NextStop.Proofs.Engine.Alarm
import NextStop.Proofs.Engine.Outcomes
import NextStop.Proofs.Replay.Timeline
import NextStop.Proofs.Replay.Tally
import NextStop.Proofs.Passage.Alternation
import NextStop.Proofs.Engine.Sightings
import NextStop.Proofs.Statistics.Changes
import NextStop.Proofs.Statistics.Rewriting
import NextStop.Proofs.Statistics.Shelves
import NextStop.Proofs.Statistics.Durations
import NextStop.Proofs.Statistics.LeastSquares
import NextStop.Proofs.Statistics.Footprint
import NextStop.Proofs.Statistics.Standpoint
import NextStop.Proofs.Statistics.Answers
import NextStop.Proofs.Forecast.Way
import NextStop.Proofs.Forecast.Standpoint
import NextStop.Proofs.Engine.Yield
import NextStop.Proofs.Engine.Effect
import NextStop.Proofs.Engine.Currency
import NextStop.Proofs.Engine.PublicMap
import NextStop.Proofs.Engine.Standpoint
import NextStop.Proofs.Engine.Exchange
import NextStop.Proofs.Engine.Timeouts
import NextStop.Proofs.Board.Shares
import NextStop.Proofs.Engine.Bystanders
import NextStop.Proofs.Statistics.Populating
import NextStop.Proofs.Statistics.Spans
import NextStop.Proofs.Statistics.Means
import NextStop.Proofs.Statistics.Foresight
import NextStop.Proofs.Statistics.VehicleAhead
import NextStop.Proofs.Statistics.Samples
import NextStop.Proofs.Forecast.Itinerary
import NextStop.Proofs.Forecast.Timeliness
import NextStop.Proofs.Forecast.Consultation
import NextStop.Proofs.Forecast.Fallback
import NextStop.Proofs.Forecast.FilterError
import NextStop.Proofs.Passage.Timing
import NextStop.Proofs.Engine.Chronology
import NextStop.Proofs.Replay.Ending
import NextStop.Proofs.Statistics.TripHistory
import NextStop.Proofs.ServiceDay
import NextStop.Proofs.Engine.Limits
import NextStop.Proofs.Files.LoadedTrips
import NextStop.Proofs.Records.Hysteresis
import NextStop.Proofs.Statistics.Bookkeeping
import NextStop.Proofs.Engine.Estimates
