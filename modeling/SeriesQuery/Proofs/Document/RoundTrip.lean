import SeriesQuery.Document.Config
import SeriesQuery.Document.Query
import SeriesQuery.Document.Time

/-!
# Documents are read back

What is written as a document is read back as it was, with one exception: a value
carries no mark of its type, so that a timestamp comes back as its text, and a
decimal that is not finite as null. `restored` is what comes back of a value and
of an expression, whatever constants it has.
-/

namespace SeriesQuery

open SeriesQuery.Document

-- ---------------------------------------------------------------------------
-- Words and numbers
-- ---------------------------------------------------------------------------

theorem Document.word?_word {α : Type} {cases : List α} {word : α → String} {place : Place}
    {value : α} (hc : value ∈ cases) (hwords : (cases.map word).Nodup) :
    word? place cases word (.string (word value)) = some value := by
  show cases.find? (word · = word value) = some value
  induction cases with
  | nil => cases hc
  | cons head rest ih =>
    obtain ⟨hnew, hrest⟩ := List.nodup_cons.mp hwords
    rcases List.mem_cons.mp hc with rfl | hc
    · simp
    · have hne : word head ≠ word value := fun heq => hnew (heq ▸ List.mem_map_of_mem hc)
      rw [List.find?_cons_of_neg (by simpa using hne), ih hc hrest]

@[simp] theorem DataType.decode_encode (place : Place) (type : DataType) :
    decode place type.encode = some type :=
  word?_word (by cases type <;> decide) (by decide)

@[simp] theorem Comparison.decode_encode (op : Comparison) : decode op.encode = some op :=
  word?_word (by cases op <;> decide) (by decide)

@[simp] theorem LogicalOp.decode_encode (op : LogicalOp) : decode op.encode = some op :=
  word?_word (by cases op <;> decide) (by decide)

@[simp] theorem NumericOp.decode_encode (op : NumericOp) : decode op.encode = some op :=
  word?_word (by cases op <;> decide) (by decide)

@[simp] theorem UnaryOp.decode_encode (op : UnaryOp) : decode op.encode = some op :=
  word?_word (by cases op <;> decide) (by decide)

@[simp] theorem CalendarUnit.decode_encode (unit : CalendarUnit) : decode unit.encode = some unit :=
  word?_word (by cases unit <;> decide) (by decide)

@[simp] theorem Document.int64?_toInt (i : Int64) : int64? (.integer i.toInt) = some i :=
  integer?_toInt i

@[simp] theorem Document.int32?_toInt (i : Int32) : int32? (.integer i.toInt) = some i := by
  have hlow : -2147483648 ≤ i.toInt := i.le_toInt
  have hhigh : i.toInt ≤ 2147483647 := Int.le_of_lt_add_one i.toInt_lt
  rw [int32?, if_pos ⟨hlow, hhigh⟩, Int32.ofInt_toInt]

-- ---------------------------------------------------------------------------
-- Values
-- ---------------------------------------------------------------------------

namespace Value

/-- What is read back of a value: its text for a timestamp, and null for a decimal
that is not finite. -/
def restored : Value → Value
  | .null => .null
  | .boolean b => .boolean b
  | .integer i => .integer i
  | .decimal x => if x.isFinite then .decimal x else .null
  | .string text => .string text
  | .timestamp t => .string t.inDocument

/-- Neither a timestamp nor a decimal that is not finite. -/
def Lasting : Value → Prop
  | .decimal x => x.isFinite = true
  | .timestamp _ => False
  | _ => True

@[simp] theorem decode_encode (value : Value) : decode value.encode = some value.restored := by
  cases value with
  | null => rfl
  | boolean => rfl
  | integer i => simp only [encode, decode, integer?_toInt, restored]
  | decimal x =>
    simp only [encode, restored]
    split <;> rfl
  | string => rfl
  | timestamp => rfl

theorem Lasting.restored_eq {value : Value} (h : value.Lasting) : value.restored = value := by
  cases value with
  | decimal x => exact if_pos h
  | timestamp => exact h.elim
  | null => rfl
  | boolean => rfl
  | integer => rfl
  | string => rfl

end Value

-- ---------------------------------------------------------------------------
-- Fields
-- ---------------------------------------------------------------------------

namespace Field

theorem decodeEntries_encode (place : Place) (field : Field) :
    (entries? field.encode).bind (decodeEntries place) = some field := by
  obtain ⟨urn, dataType, required, unit, metadata⟩ := field
  cases hm : metadata.entries.isEmpty with
  | true =>
    have hempty : decodeMeta none = some metadata :=
      congrArg some (Meta.ext (List.isEmpty_iff.mp hm).symm)
    cases unit <;>
      simp [encode, encodeUnit, encodeMeta, hm, entries?, decodeEntries, required?, optional?,
        text?, truth?, decodeUnit, hempty]
  | false =>
    cases unit <;>
      simp [encode, encodeUnit, encodeMeta, hm, entries?, decodeEntries, required?, optional?,
        text?, truth?, decodeUnit, decodeMeta]

@[simp] theorem decode_encode (field : Field) : decode field.encode = some field :=
  decodeEntries_encode .part field

end Field

-- ---------------------------------------------------------------------------
-- Periods and configurations
-- ---------------------------------------------------------------------------

theorem PeriodSpec.decode_encode (spec : PeriodSpec) : decode spec.encode = some spec := by
  cases spec with
  | fixed seconds offset =>
    simp [encode, decode, entries?, required?, optional?, text?, decodeOffset]
  | calendar unit offset =>
    simp [encode, decode, entries?, required?, optional?, text?, decodeOffset]

namespace EngineConfig

theorem set_offset (config : EngineConfig) (offset : Int32) :
    set config (offsetKey, .integer offset.toInt) = .ok { config with utcOffset := offset } := by
  have hread : readNumber .offset lowestOffset highestOffset (.integer offset.toInt) =
      .ok offset.toInt := if_pos ⟨offset.le_toInt, Int.le_of_lt_add_one offset.toInt_lt⟩
  rw [set, if_pos rfl, hread]
  exact congrArg (fun x => Except.ok { config with utcOffset := x }) offset.ofInt_toInt

theorem set_limit (config : EngineConfig) (limit : UInt64) :
    set config (limitKey, .integer limit.toNat) = .ok { config with gapLimit := limit } := by
  have hlt : limit.toNat < 2 ^ 64 := limit.toNat_lt
  have hread : readNumber .count 0 highestLimit (.integer limit.toNat) = .ok limit.toNat :=
    if_pos ⟨Int.natCast_nonneg _, by rw [highestLimit]; omega⟩
  have hlimit : UInt64.ofInt limit.toNat = limit := by
    rw [UInt64.ofInt, show (limit.toNat : Int) % 2 ^ 64 = limit.toNat by omega, Int.toNat_natCast,
      UInt64.ofNat_toNat]
  rw [set, if_neg (show limitKey ≠ offsetKey by decide), if_pos rfl, hread]
  exact congrArg (fun x => Except.ok { config with gapLimit := x }) hlimit

theorem set_filter (config : EngineConfig) (filter : String) :
    set config (filterKey, .string filter) = .ok { config with logFilter := filter } := rfl

theorem decode_encode (config : EngineConfig) : decode config.encode = some config := by
  have hkeys : [offsetKey, limitKey, filterKey].Nodup := by decide
  have hset : ofEntries [(offsetKey, .integer config.utcOffset.toInt),
      (limitKey, .integer config.gapLimit.toNat), (filterKey, .string config.logFilter)] =
      .ok config := by
    simp only [ofEntries, List.foldlM_cons, set_offset, set_limit, set_filter]
    rfl
  simp only [decode, encode, entries?, Option.bind_eq_bind, Option.bind_some, hset]
  exact if_pos hkeys

end EngineConfig

-- ---------------------------------------------------------------------------
-- Expressions
-- ---------------------------------------------------------------------------

namespace Expr

def restored : Expr → Expr
  | .constant field value => .constant field value.restored
  | .reference urn => .reference urn
  | .cast source target => .cast source.restored target
  | .condition op left right => .condition op left.restored right.restored
  | .logical op left right => .logical op left.restored right.restored
  | .numeric op left right => .numeric op left.restored right.restored
  | .unary op operand => .unary op operand.restored
  | .nvl source alternative => .nvl source.restored alternative.restored
  | .selector choice whenTrue whenFalse =>
    .selector choice.restored whenTrue.restored whenFalse.restored

def Lasting : Expr → Prop
  | .constant _ value => value.Lasting
  | .reference _ => True
  | .cast source _ => source.Lasting
  | .condition _ left right => left.Lasting ∧ right.Lasting
  | .logical _ left right => left.Lasting ∧ right.Lasting
  | .numeric _ left right => left.Lasting ∧ right.Lasting
  | .unary _ operand => operand.Lasting
  | .nvl source alternative => source.Lasting ∧ alternative.Lasting
  | .selector choice whenTrue whenFalse =>
    choice.Lasting ∧ whenTrue.Lasting ∧ whenFalse.Lasting

theorem Lasting.restored_eq {expr : Expr} (h : expr.Lasting) : expr.restored = expr := by
  induction expr with
  | constant field value => exact congrArg (Expr.constant field) (Value.Lasting.restored_eq h)
  | reference => rfl
  | cast source target ih => rw [restored, ih h]
  | condition op left right ihl ihr => rw [restored, ihl h.1, ihr h.2]
  | logical op left right ihl ihr => rw [restored, ihl h.1, ihr h.2]
  | numeric op left right ihl ihr => rw [restored, ihl h.1, ihr h.2]
  | unary op operand ih => rw [restored, ih h]
  | nvl source alternative ihs iha => rw [restored, ihs h.1, iha h.2]
  | selector choice whenTrue whenFalse ihc iht ihf =>
    rw [restored, ihc h.1, iht h.2.1, ihf h.2.2]

theorem decodeAt_node (place : Place) (name : String) (entries : List (String × Json)) :
    decodeAt place (node name entries) =
      decodeNode place (("node", .string name) :: entries)
        (("node", none) :: decodeEntries entries) := by
  rw [node, decodeAt, decodeEntries, decodeAt]

theorem decodeAt_encode (place : Place) (expr : Expr) :
    decodeAt place expr.encode = some expr.restored := by
  induction expr generalizing place with
  | constant field value =>
    simp [encode, decodeAt_node, decodeNode, required?, nodeName?, restored]
  | reference =>
    simp [encode, decodeAt_node, decodeNode, required?, nodeName?, text?, restored]
  | cast source target ih =>
    simp [encode, decodeAt_node, decodeNode, decodeEntries, required?, nodeName?, restored, ih]
  | condition op left right ihl ihr =>
    simp [encode, decodeAt_node, decodeNode, decodeEntries, required?, nodeName?, restored, ihl,
      ihr]
  | logical op left right ihl ihr =>
    simp [encode, decodeAt_node, decodeNode, decodeEntries, required?, nodeName?, restored, ihl,
      ihr]
  | numeric op left right ihl ihr =>
    simp [encode, decodeAt_node, decodeNode, decodeEntries, required?, nodeName?, restored, ihl,
      ihr]
  | unary op operand ih =>
    simp [encode, decodeAt_node, decodeNode, decodeEntries, required?, nodeName?, restored, ih]
  | nvl source alternative ihs iha =>
    simp [encode, decodeAt_node, decodeNode, decodeEntries, required?, nodeName?, restored, ihs,
      iha]
  | selector choice whenTrue whenFalse ihc iht ihf =>
    simp [encode, decodeAt_node, decodeNode, decodeEntries, required?, nodeName?, restored, ihc,
      iht, ihf]

theorem decode_encode (expr : Expr) : decode expr.encode = some expr.restored :=
  decodeAt_encode .whole expr

end Expr

-- ---------------------------------------------------------------------------
-- All documents
-- ---------------------------------------------------------------------------

/-- Reading undoes writing, for a field wherever it stands. What an expression loses are the types
of its constants that have no JSON form of their own. -/
theorem Document.read_undoes_write :
    (∀ value : Value, value.Lasting → Value.decode value.encode = some value) ∧
    (∀ (place : Place) (field : Field),
      (entries? field.encode).bind (Field.decodeEntries place) = some field) ∧
    (∀ spec : PeriodSpec, PeriodSpec.decode spec.encode = some spec) ∧
    (∀ config : EngineConfig, EngineConfig.decode config.encode = some config) ∧
    (∀ expr : Expr, expr.Lasting → Expr.decode expr.encode = some expr) ∧
    (∀ expr : Expr, Expr.decode expr.encode = some expr.restored) := by
  refine ⟨fun value hlasting => ?_, Field.decodeEntries_encode, PeriodSpec.decode_encode,
    EngineConfig.decode_encode, fun expr hlasting => ?_, Expr.decode_encode⟩
  · rw [Value.decode_encode, hlasting.restored_eq]
  · rw [Expr.decode_encode, hlasting.restored_eq]

theorem Document.whole_number_read_back :
    let whole : Expr := .cast (.constant (.plain "n" .integer true) (.integer 5)) .string
    let epoch : Expr := .constant (.plain "t" .timestamp true) (.timestamp .epoch)
    (Value.integer 5).Lasting ∧ whole.Lasting ∧
      Value.decode (Value.integer 5).encode = some (.integer 5) ∧
      Expr.decode whole.encode = some whole ∧
      Expr.decode (Expr.nvl epoch whole).encode =
        some (.nvl (.constant (.plain "t" .timestamp true) (.string "1970-01-01T00:00:00Z"))
          whole) := by
  obtain ⟨hvalue, -, -, -, hlasting, hall⟩ := Document.read_undoes_write
  intro whole epoch
  have htext : Instant.epoch.inDocument = "1970-01-01T00:00:00Z" := by decide
  refine ⟨trivial, trivial, hvalue _ trivial, hlasting whole trivial, ?_⟩
  rw [hall, ← htext]
  rfl

end SeriesQuery
