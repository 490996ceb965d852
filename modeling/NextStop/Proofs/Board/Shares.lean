import NextStop.Proofs.Board.Installed

/-!
# The share of some vehicles

On a board whose predictions name the vehicles that they are listed for, `Board.Signed`, the share
of some vehicles in what is shown for a stop can be told by these names. It depends on their own
predictions only, down to the order in which they are shown, `Board.Sound.filter_forStop_congr`.
-/

namespace NextStop

namespace Board

/-- Every prediction names the vehicle that it is listed for. -/
def Signed (b : Board) : Prop := ∀ v, ∀ p ∈ b.forVehicle v, p.vehicle = v

theorem filter_sorted (test : Prediction → Bool) (ps : List Prediction) :
    (sorted ps).filter test = sorted (ps.filter test) :=
  StableSort.filter_mergeSort (StableSort.key_total Prediction.time)
    (StableSort.key_trans Prediction.time) test ps

/-- Boards with the same predictions of some vehicles show the same of them for every stop, in the
same order. -/
theorem Sound.filter_forStop_congr {b c : Board} (hb : b.Sound) (hc : c.Sound)
    (hsigned : b.Signed) (hsigned' : c.Signed) (these : VehicleId → Bool)
    (h : ∀ v, these v = true → b.forVehicle v = c.forVehicle v) (route : RouteId)
    (stop : StopId) :
    (b.forStop route stop).filter (these ·.vehicle) =
      (c.forStop route stop).filter (these ·.vehicle) := by
  have hname : ∀ {d : Board}, d.Sound → d.Signed → ∀ (v : VehicleId) (p : Prediction),
      p ∈ (((d.byStop[RouteStop.mk route stop]?).getD ∅)[v]?).getD [] → p.vehicle = v := by
    intro d hd hsigned v p hp
    rw [← listed_eq_getD, hd.listed_eq] at hp
    exact hsigned v p (List.mem_filter.mp hp).1
  rw [forStop_eq_sorted, forStop_eq_sorted, filter_sorted, filter_sorted]
  refine congrArg sorted (Table.filter_values_flatten_congr (hname hb hsigned)
    (hname hc hsigned') fun v hv => ?_)
  refine kept_eq_of_getD_eq (hb.kept_forStop route stop v) (hc.kept_forStop route stop v) ?_
  rw [← listed_eq_getD, ← listed_eq_getD, hb.listed_eq, hc.listed_eq, h v hv]

end Board

end NextStop
