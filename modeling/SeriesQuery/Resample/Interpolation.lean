import SeriesQuery.Value.Conversion

/-!
# Interpolation

The value between two samples of a numeric field, on the straight line through them. It is
computed in decimals; integers lose the fraction.
-/

namespace SeriesQuery

/-- The value at `target` on the line from `first` to `last`. -/
def interpolate (type : DataType) (first last : Sample Value) (target : Instant) :
    Except EvalError Value := do
  if target < first.timestamp ∨ last.timestamp < target then
    throw (.interpolationOutOfBounds target first.timestamp last.timestamp)
  let start ← type.toDecimal first.value
  let finish ← type.toDecimal last.value
  if first.timestamp = last.timestamp then type.ofDecimal start
  else
    let weight := secondsBetween first.timestamp target /
      secondsBetween first.timestamp last.timestamp
    type.ofDecimal (start + (finish - start) * weight)

end SeriesQuery
