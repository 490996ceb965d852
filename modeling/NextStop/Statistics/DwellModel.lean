import NextStop.Statistics.ExpiringCache
import NextStop.Statistics.Key
import NextStop.Scalar

/-!
# Dwell times that depend on the headway

The longer the gap to the vehicle ahead, the more passengers wait at a stop. A dwell model is a
line, dwell = intercept + slope * headway, fitted to observed pairs by recursive least squares:
every sample first discounts the weight of the past by a forgetting factor and then corrects
the line by its error. `DwellModels` keeps one model for each stop.
-/

namespace NextStop

/-- A line and the covariance of its two parameters. -/
structure DwellModel (α : Type) where
  intercept : α
  slope : α
  p00 : α
  p01 : α
  p10 : α
  p11 : α
  samples : Nat
  deriving DecidableEq

namespace DwellModel

variable {α : Type} [Scalar α]

/-- The model before any sample: the zero line, with a covariance of 1000 for each parameter. -/
def initial : DwellModel α := ⟨0, 0, Scalar.ofNat 1000, 0, 0, Scalar.ofNat 1000, 0⟩

/-- The dwell time in seconds after a headway in seconds. -/
def predict (m : DwellModel α) (headway : α) : α := m.intercept + m.slope * headway

/-- The model after one more sample, times in seconds. A sample whose gain is undefined is left
out. -/
def add (m : DwellModel α) (headway dwell forgetting : α) : DwellModel α :=
  let px0 := m.p00 + m.p01 * headway
  let px1 := m.p10 + m.p11 * headway
  let denom := forgetting + px0 + headway * px1
  if !Scalar.isFinite denom ∨ (0 - Scalar.epsilon < denom ∧ denom < Scalar.epsilon) then m
  else
    let g0 := px0 / denom
    let g1 := px1 / denom
    let err := dwell - m.predict headway
    { intercept := m.intercept + g0 * err
      slope := m.slope + g1 * err
      p00 := (m.p00 - g0 * px0) / forgetting
      p01 := (m.p01 - g0 * px1) / forgetting
      p10 := (m.p10 - g1 * px0) / forgetting
      p11 := (m.p11 - g1 * px1) / forgetting
      samples := m.samples + 1 }

end DwellModel

/-- The dwell models of all stops. -/
structure DwellModels (α : Type) where
  cache : ExpiringCache PathKey (DwellModel α)
  forgetting : α
  minSamples : Nat

namespace DwellModels

variable {α : Type} [Scalar α]

/-- No models; the forgetting factor is held between a half and one. -/
def empty (capacity : Nat) (lifetime : Int) (forgetting : α) (minSamples : Nat) :
    DwellModels α :=
  ⟨.empty capacity lifetime, Scalar.clamp (Scalar.ratio 1 2) 1 forgetting, minSamples⟩

/-- A span of milliseconds in seconds. -/
def seconds (ms : Int) : α := (ms : α) / Scalar.ofNat 1000

/-- Adds a headway and a dwell time, both in milliseconds, to the model of a key. -/
def add (d : DwellModels α) (now : Int) (k : PathKey) (headway dwell : Int) : DwellModels α :=
  { d with cache := d.cache.update now k fun m =>
      (m.getD .initial).add (seconds headway) (seconds dwell) d.forgetting }

/-- The dwell time in milliseconds that the model of a key predicts, once it has enough
samples. -/
def predict? (d : DwellModels α) (now : Int) (k : PathKey) (headway : Int) : Option Int :=
  (d.cache.get? now k).bind fun m =>
    if m.samples < d.minSamples then none
    else
      let secs := m.predict (seconds headway)
      if Scalar.isFinite secs then some (Scalar.round (secs * Scalar.ofNat 1000)) else none

/-- The keys that have a model. -/
def keys (d : DwellModels α) (now : Int) : List PathKey := d.cache.keys now

end DwellModels

end NextStop
