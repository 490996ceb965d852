import NextStop.Date

/-!
# Service days and times of day

Schedules are kept in local time, which runs at a fixed offset from the times of the reports.
Here are the local date of a time, its time of day, and the buckets of the day over which
statistics of service without a timetable are pooled.
-/

namespace NextStop

namespace ServiceDay

/-- The length of a day in seconds. -/
def secondsPerDay : Int := 86400

/-- The first local time that has a date, the start of the year -262143. -/
def firstDated : Int := -8334601228800000

/-- The last local time that has a date, the end of the year 262142. -/
def lastDated : Int := 8210266876799999

/-- A time shifted by the offset of local time in seconds. -/
def localTime (time offset : Int) : Int := time + offset * 1000

/-- The local date of a time. Times so far away that the calendar has no date for them count
as 1970-01-01. -/
def dateOf (time offset : Int) : Date :=
  let t := localTime time offset
  if firstDated ≤ t ∧ t ≤ lastDated then Date.ofDays (t / 86400000) else Date.epoch

/-- The local time of day in seconds after midnight. -/
def secondOfDay (time offset : Int) : Nat := ((time / 1000 + offset) % secondsPerDay).toNat

/-- The start of the bucket of a given width that holds a time of day. A width of zero means a
bucket for every second. -/
def bucket (secs width : Nat) : Nat := if width = 0 then secs else secs - secs % width

theorem secondOfDay_lt (time offset : Int) : secondOfDay time offset < 86400 := by
  unfold secondOfDay secondsPerDay; omega

theorem bucket_le (secs width : Nat) : bucket secs width ≤ secs := by
  unfold bucket; split <;> omega

end ServiceDay

end NextStop
