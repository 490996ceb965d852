import NextStop.Engine.Basic

/-!
# Sweeps for silent vehicles

Vehicles that report are watched. A sweep goes over the watched vehicles and demotes those that
have been silent for too long. A vehicle at a wait stop may be silent until some time after its
scheduled departure, and an assignment without a real vehicle behind it lasts until some time
after its first scheduled departure.
-/

namespace NextStop

/-- Why a vehicle timed out, with the spans in question in milliseconds. -/
inductive TimeoutCause where
  /-- Silent for a span. -/
  | silent (silence : Int)
  /-- Silent for a span and past its departure from a wait stop by another. -/
  | silentPastDeparture (silence past : Int)
  /-- Without a real vehicle, and past its first departure by a span. -/
  | pastDeparture (past : Int)
  deriving DecidableEq

/-- The wording of the cause; spans are given in full seconds. -/
def TimeoutCause.description : TimeoutCause → String
  | silent silence => "No AVL report for " ++ toString (silence / 1000) ++ "s"
  | silentPastDeparture silence past =>
    "No AVL report for " ++ toString (silence / 1000) ++ "s and " ++ toString (past / 1000) ++
      "s past scheduled wait stop departure"
  | pastDeparture past =>
    "Schedule based vehicle " ++ toString (past / 1000) ++ "s past its scheduled departure"

/-- What a sweep decides for a watched vehicle. -/
inductive Verdict where
  | keep
  /-- Stop watching it. -/
  | forget
  /-- Stop watching it and take it off the public map. -/
  | evict
  | timeOut (cause : TimeoutCause)
  deriving DecidableEq

namespace Engine

variable {α : Type} [Scalar α]

/-- Whether a vehicle last heard of at `last` has been silent for too long. -/
def isSilent (s : Settings α) (last now : Int) : Bool :=
  Time.later last (Span.ofSeconds s.silenceLimit) < now

/-- The verdict on a vehicle that is not predictable. -/
def verdictIdle (s : Settings α) (last now : Int) : Verdict :=
  if !s.dropTimedOut then .forget else if isSilent s last now then .evict else .keep

/-- The verdict on an assignment without a real vehicle behind it. -/
def verdictScheduled (s : Settings α) (v : Vehicle α) (now : Int) : Verdict :=
  match v.trip.bind fun t => v.placement.bind fun p => t.scheduledTime? 0 p.serviceDay with
  | none => .keep
  | some departure =>
    if Time.later departure (Span.ofSeconds s.scheduleGrace) < now then
      .timeOut (.pastDeparture (now - departure))
    else .keep

/-- The scheduled departure from the stop that a vehicle is at. -/
def heldUntil? (s : Settings α) (t : Trip α) (p : Placement α) : Option Int :=
  (p.atStop? t s.defaultRadius).bind fun stop => t.scheduledTime? stop p.serviceDay

/-- The verdict on a predictable vehicle that has been silent for too long. -/
def verdictSilent (s : Settings α) (v : Vehicle α) (last now : Int) : Verdict :=
  let silence := now - last
  if !v.atWaitStop then .timeOut (.silent silence)
  else
    match v.trip, v.placement with
    | some t, some p =>
      if t.frequencyBased then .timeOut (.silent silence)
      else match heldUntil? s t p with
        | none => .keep
        | some departure =>
          if Time.later departure (Span.ofSeconds s.waitStopGrace) < now then
            .timeOut (.silentPastDeparture silence (now - departure))
          else .keep
    | _, _ => .timeOut (.silent silence)

/-- The verdict on a watched vehicle last heard of at `last`. -/
def verdict (s : Settings α) (v : Vehicle α) (last now : Int) : Verdict :=
  if !v.predictable then verdictIdle s last now
  else if v.scheduleBased then verdictScheduled s v now
  else if isSilent s last now then verdictSilent s v last now
  else .keep

/-- When a vehicle was last heard of; its latest report may be newer than what the watch
knows. -/
def lastHeard (v : Vehicle α) (watched : Int) : Int :=
  match v.lastReport with
  | some r => max watched r.time
  | none => watched

/-- Demotes a vehicle that timed out and stops watching it. -/
def timeOut (e : Engine α) (now : Int) (v : Vehicle α) (cause : TimeoutCause) :
    StatusEvent × Engine α :=
  let (v, event) := v.demote .timeout cause.description now
  let e := ((e.afterDemotion v event).keep v).unwatch v.id
  (event, if e.settings.dropTimedOut then e.unpublish v.id else e)

/-- The sweep of one watched vehicle. -/
def sweepOne (e : Engine α) (now : Int) (id : VehicleId) (watched : Int) :
    Option StatusEvent × Engine α :=
  match e.vehicles[id]? with
  | none => (none, e.unwatch id)
  | some v =>
    let last := lastHeard v watched
    match verdict e.settings v last now with
    | .keep => (none, e.watchFrom id last)
    | .forget => (none, e.unwatch id)
    | .evict => (none, (e.unwatch id).unpublish id)
    | .timeOut cause =>
      let (event, e) := e.timeOut now v cause
      (some event, e)

/-- The sweep of a list of watched vehicles. -/
def sweepAll (now : Int) : List (VehicleId × Int) → Engine α → List StatusEvent × Engine α
  | [], e => ([], e)
  | (id, watched) :: rest, e =>
    let (event, e) := e.sweepOne now id watched
    let (events, e) := sweepAll now rest e
    (event.toList ++ events, e)

/-- The sweep of all watched vehicles, with the timeouts that it finds. -/
def sweep (e : Engine α) (now : Int) : List StatusEvent × Engine α :=
  sweepAll now e.watch.toList e

/-- Sweeps at one reading of the clock, as often as the polling interval fits into a number of
seconds. -/
def supervise (e : Engine α) (now : Int) (secs : Nat) : Engine α :=
  Nat.repeat (fun e => (e.sweep now).2) (secs / max e.settings.pollingInterval 1) e

end Engine

end NextStop
