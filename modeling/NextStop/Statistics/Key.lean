import NextStop.Prediction
import Std.Data.TreeMap

/-!
# Keys of statistics

The keys under which statistics are kept, each ordered by its fields, with the instances that
make tables over them lawful.
-/

namespace NextStop

/-- The key of statistics of one stop path. Service without a timetable has one key for each
bucket of the day. -/
structure PathKey where
  trip : TripId
  index : Nat
  quantity : Quantity
  bucket : Option Nat
  deriving DecidableEq

/-- The key of what is kept once for a stop path. -/
structure SegmentKey where
  trip : TripId
  index : Nat
  deriving DecidableEq

/-- The key of one run of a trip. -/
structure RunKey where
  trip : TripId
  serviceDate : Date
  start : Nat
  deriving DecidableEq

/-- The key of a stop on one service day. -/
structure StopDayKey where
  stop : StopId
  serviceDate : Date
  deriving DecidableEq

namespace PathKey

/-- The key of a travel or dwell time of service with a timetable. -/
def plain (quantity : Quantity) (trip : TripId) (index : Nat) : PathKey :=
  ⟨trip, index, quantity, none⟩

/-- The key in words. -/
def describe (k : PathKey) : String :=
  "StopPathCacheKey[trip=" ++ k.trip ++ ", stopPath=" ++ toString k.index ++
    ", travel=" ++ (if k.quantity.isTravel then "true" else "false") ++
    ", start=" ++ (match k.bucket with
      | none => "None"
      | some b => "Some(" ++ toString b ++ ")") ++ "]"

end PathKey

/-! ## Order -/

instance : Ord PathKey where
  compare := compareLex (compareOn PathKey.trip) (compareLex (compareOn PathKey.index)
    (compareLex (compareOn fun k => k.quantity.isTravel) (compareOn PathKey.bucket)))

instance : Std.TransOrd PathKey :=
  inferInstanceAs (Std.TransCmp (compareLex _ _))

instance : Std.LawfulEqOrd PathKey where
  eq_of_compare {a b} h := by
    replace h : compareLex (compareOn PathKey.trip) (compareLex (compareOn PathKey.index)
      (compareLex (compareOn fun k => k.quantity.isTravel) (compareOn PathKey.bucket))) a b =
        .eq := h
    simp only [compareLex_eq_eq, compareOn, Std.LawfulEqCmp.compare_eq_iff_eq] at h
    cases a; cases b
    simp_all [Quantity.isTravel_inj]

instance : Ord SegmentKey where
  compare := compareLex (compareOn SegmentKey.trip) (compareOn SegmentKey.index)

instance : Std.TransOrd SegmentKey :=
  inferInstanceAs (Std.TransCmp (compareLex _ _))

instance : Std.LawfulEqOrd SegmentKey where
  eq_of_compare {a b} h := by
    replace h : compareLex (compareOn SegmentKey.trip) (compareOn SegmentKey.index) a b = .eq := h
    simp only [compareLex_eq_eq, compareOn, Std.LawfulEqCmp.compare_eq_iff_eq] at h
    cases a; cases b
    simp_all

instance : Ord RunKey where
  compare := compareLex (compareOn RunKey.trip)
    (compareLex (compareOn RunKey.serviceDate) (compareOn RunKey.start))

instance : Std.TransOrd RunKey :=
  inferInstanceAs (Std.TransCmp (compareLex _ _))

instance : Std.LawfulEqOrd RunKey where
  eq_of_compare {a b} h := by
    replace h : compareLex (compareOn RunKey.trip)
      (compareLex (compareOn RunKey.serviceDate) (compareOn RunKey.start)) a b = .eq := h
    simp only [compareLex_eq_eq, compareOn, Std.LawfulEqCmp.compare_eq_iff_eq] at h
    cases a; cases b
    simp_all

instance : Ord StopDayKey where
  compare := compareLex (compareOn StopDayKey.stop) (compareOn StopDayKey.serviceDate)

instance : Std.TransOrd StopDayKey :=
  inferInstanceAs (Std.TransCmp (compareLex _ _))

instance : Std.LawfulEqOrd StopDayKey where
  eq_of_compare {a b} h := by
    replace h : compareLex (compareOn StopDayKey.stop) (compareOn StopDayKey.serviceDate) a b =
      .eq := h
    simp only [compareLex_eq_eq, compareOn, Std.LawfulEqCmp.compare_eq_iff_eq] at h
    cases a; cases b
    simp_all

end NextStop
