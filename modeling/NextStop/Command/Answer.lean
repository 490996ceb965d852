import NextStop.Replay
import NextStop.Statistics.Query
import NextStop.Text.Json

/-!
# What the commands answer

The summary of a replay and the counts of the statistics, as JSON.
-/

namespace NextStop

def Replay.Summary.toJson (s : Replay.Summary) : Json := .obj [
  ("reports", .nat s.reports), ("matched", .nat s.matched), ("rejected", .nat s.rejected),
  ("predictions", .nat s.predictions), ("arrivals_departures", .nat s.stopEvents),
  ("timeouts", .nat s.timeouts), ("queue_backed_up", .bool s.backedUp)]

def KeyCounts.toJson (c : KeyCounts) : Json := .obj [
  ("schedule_based_averages", .nat c.scheduleMeans),
  ("frequency_based_averages", .nat c.frequencyMeans), ("kalman_errors", .nat c.kalmanErrors),
  ("trip_histories", .nat c.runs), ("stop_histories", .nat c.stops),
  ("stop_path_predictions", .nat c.pathEstimates), ("dwell_models", .nat c.dwellModels)]

end NextStop
