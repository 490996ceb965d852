import NextStop.Placement
import NextStop.Statistics.Basic

/-!
# Headways

The headway of a vehicle is the time since another vehicle of its route and direction last left
the stop that the vehicle is at, or is heading to.
-/

namespace NextStop

namespace Statistics

variable {α : Type} [Scalar α]

/-- The headway of an observer placed on a trip. -/
def headway? (s : Statistics α) (now : Int) (trip : Trip α) (p : Placement α) (o : Observer) :
    Option Headway :=
  let index := (p.atStop? trip s.settings.defaultRadius).getD p.index
  (trip.stopPath? index).bind fun path =>
    (s.departureAhead? now ⟨path.stop, trip.route, trip.direction⟩ o).map fun ahead =>
      { vehicle := o.vehicle
        ahead := ahead.vehicle
        route := trip.route
        trip := trip.id
        stop := path.stop
        gap := Time.wrap (o.time - ahead.time)
        time := o.time }

end Statistics

end NextStop
