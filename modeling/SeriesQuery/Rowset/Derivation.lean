import SeriesQuery.Rowset.Basic

/-!
# Derived series

A derivation goes through a series once and keeps one earlier sample. Differences, rates of
change and the increments of a counter are derivations of a required numeric field.
-/

namespace SeriesQuery

/-- From the sample kept and the current one: the sample to keep, and the value to answer at the
current timestamp, if any. -/
abbrev Derivation :=
  Option (Sample Value) → Sample Value → Option (Sample Value) × Except EvalError (Option Value)

namespace Derivation

def subtract (type : DataType) (current previous : Value) : Except EvalError Value :=
  match current, previous with
  | .integer a, .integer b =>
    match integer? (a.toInt - b.toInt) with
    | some difference => .ok (.integer difference)
    | none => .error (.overflow "delta")
  | current, previous => do
    let a ← type.toDecimal current
    let b ← type.toDecimal previous
    type.ofDecimal (a - b)

def delta (type : DataType) : Derivation := fun previous current =>
  (some current,
    match previous with
    | none => .ok none
    | some before => (subtract type current.value before.value).map some)

def rate (type : DataType) : Derivation := fun previous current =>
  (some current, do
    let number ← type.toDecimal current.value
    match previous with
    | none => return none
    | some before =>
      let elapsed := secondsBetween before.timestamp current.timestamp
      if elapsed == 0 then throw (.zeroTimeDelta current.timestamp)
      let start ← type.toDecimal before.value
      return some (.decimal ((number - start) / elapsed)))

/-! ## Counters -/

def isNegative (type : DataType) (value : Value) : Except EvalError Bool := do
  return (← type.toDecimal value) < 0

def isLess (type : DataType) (a b : Value) : Except EvalError Bool :=
  match a, b with
  | .integer a, .integer b => .ok (a < b)
  | a, b => do return (← type.toDecimal a) < (← type.toDecimal b)

/-- The increment of a counter that went over its maximum. -/
def wrapped (type : DataType) (maximum current previous : Value) : Except EvalError Value := do
  let headroom ← subtract type maximum previous
  match headroom, current with
  | .integer a, .integer b =>
    match integer? (a.toInt + b.toInt) with
    | some sum => return .integer sum
    | none => throw (.overflow "counter wrap")
  | headroom, current =>
    type.ofDecimal ((← type.toDecimal headroom) + (← type.toDecimal current))

/-- The increment of a counter from one value to the next: a decrease is a wrap if the counter
has a maximum, and a fresh start from zero otherwise. -/
def increment (type : DataType) (maximum : Option Value) (current previous : Value) :
    Except EvalError Value := do
  if ← isLess type current previous then
    match maximum with
    | some maximum => wrapped type maximum current previous
    | none => return current
  else subtract type current previous

/-- The increments of a counter; negative samples are skipped. -/
def counterDelta (type : DataType) (maximum : Option Value) : Derivation :=
  fun previous current =>
    match isNegative type current.value with
    | .error e => (previous, .error e)
    | .ok true => (previous, .ok none)
    | .ok false =>
      (some current,
        match previous with
        | none => .ok none
        | some before => (increment type maximum current.value before.value).map some)

def step (derivation : Derivation) (stage : String) (kept : Option (Sample Value))
    (sample : Sample Row) : Option (Sample Value) × Option (Except QueryError (Sample Row)) :=
  match derivation kept sample.scalar with
  | (kept, .ok (some value)) => (kept, some (.ok ⟨sample.timestamp, [value]⟩))
  | (kept, .ok none) => (kept, none)
  | (kept, .error e) => (kept, some (.error (.eval (.context stage e))))

end Derivation

namespace Rowset

def numericField (rowset : Rowset) (stage : String) : Except CompileError Field := do
  let field ← rowset.singleField stage
  let place := stage ++ "(" ++ field.urn ++ ")"
  CompileError.within place field.dataType.requireNumeric
  if !field.required then throw (.context place (.operandNotRequired field.urn))
  return field

def derive (rowset : Rowset) (derivation : Derivation) (stage : String) : Stream (Sample Row) :=
  Stream.guard <| rowset.rows.transduce (derivation.step stage) none

def delta (rowset : Rowset) : Except QueryError Rowset := do
  let field ← QueryError.compiling (rowset.numericField "delta")
  return ⟨[field], rowset.derive (.delta field.dataType) ("delta(" ++ field.urn ++ ")")⟩

def rate (rowset : Rowset) : Except QueryError Rowset := do
  let field ← QueryError.compiling (rowset.numericField "rate")
  let output := { field.retype .decimal true with unit := field.unit.map (· ++ "/s") }
  return ⟨[output], rowset.derive (.rate field.dataType) ("rate(" ++ field.urn ++ ")")⟩

def counterMaximum (field : Field) : Option Value → Except CompileError (Option Value)
  | none => .ok none
  | some maximum =>
    match field.dataType.coerce maximum with
    | .ok value => .ok (some value)
    | .error _ => .error (.typeMismatch field.dataType (.counterMaximum maximum))

def counterDelta (maximum : Option Value) (rowset : Rowset) : Except QueryError Rowset := do
  let field ← QueryError.compiling (rowset.numericField "counter_delta")
  let maximum ← QueryError.compiling (counterMaximum field maximum)
  return ⟨[field],
    rowset.derive (.counterDelta field.dataType maximum) ("counter_delta(" ++ field.urn ++ ")")⟩

end Rowset

end SeriesQuery
