import NextStop.Schedule.Trip

/-!
# Reports and placements

A vehicle reports where it is; a matcher outside this library places the report on the vehicle's
trip. `Placement.atStop?` decides which stop, if any, a placed vehicle is at, and
`Placement.position` measures how far along its trip it is, counted in stops.
-/

namespace NextStop

/-- One observed position of a vehicle. -/
structure Report (α : Type) where
  vehicle : VehicleId
  time : Int
  lat : α
  lon : α
  /-- Coupled behind another vehicle, which reports for both. -/
  inConsist : Bool
  deriving DecidableEq

/-- Where a vehicle is on its assignment. -/
structure Placement (α : Type) where
  trip : TripId
  block : BlockId
  /-- Midnight at the start of the trip's service day. -/
  serviceDay : Int
  /-- The stop path the vehicle is on. -/
  index : Nat
  /-- Metres covered on that stop path. -/
  along : α
  /-- The length of that stop path in metres. -/
  length : α
  deriving DecidableEq

/-- A report with what the matcher made of it. -/
structure MatchedReport (α : Type) where
  report : Report α
  /-- Nothing if the vehicle could not be placed. -/
  placement : Option (Placement α)
  /-- The assignment was made without a real vehicle behind it. -/
  scheduleBased : Bool
  deriving DecidableEq

namespace Placement

variable {α : Type} [Scalar α]

/-- The stop that a vehicle is at. It is at the stop that ends its stop path when it is within
that stop's radius of the end, and otherwise at the stop before as long as it is within that
one's radius of the start. -/
def atStop? (p : Placement α) (trip : Trip α) (defaultRadius : α) : Option Nat :=
  (trip.stopPath? p.index).bind fun ending =>
    if p.length - p.along ≤ ending.radius.getD defaultRadius then some p.index
    else if p.index = 0 then none
    else (trip.stopPath? (p.index - 1)).bind fun starting =>
      if p.along ≤ starting.radius.getD defaultRadius then some (p.index - 1) else none

/-- The first stop that a vehicle has not been at. -/
def ahead (p : Placement α) (trip : Trip α) (defaultRadius : α) : Nat :=
  match p.atStop? trip defaultRadius with
  | some stop => stop + 1
  | none => p.index

/-- The number of stops that a vehicle has left behind. -/
def behind (p : Placement α) (trip : Trip α) (defaultRadius : α) : Nat :=
  match p.atStop? trip defaultRadius with
  | some stop => stop
  | none => p.index

/-- The part of the stop path that is covered; all of it if it has no length. -/
def fraction (p : Placement α) : α :=
  if p.length ≤ 0 then 1 else Scalar.clamp 0 1 (p.along / p.length)

/-- The distance along the trip counted in stops: stop `k` lies at `k`. -/
def position (p : Placement α) : α := Scalar.ofNat p.index - 1 + p.fraction

end Placement

end NextStop
