import SqlPlan.Dialect.Basic
import SqlPlan.Json.Decode

/-!
# Dialects in documents

All but the name of a dialect may be left out and is then as in plain SQL.
-/

namespace SqlPlan

section

variable {δ ε : Type} [Document δ]

def asVocabulary : Reader δ ε Vocabulary := fun doc => do
  let entries ← Document.asMapOf TemporalUnit.ofName? Document.asText doc
  return .ofList entries

def Dialect.fields : Fields δ ε Dialect :=
  Dialect.mk <$> .required "name" Document.asText <*>
    .optional "unsupported" [] (Document.asListOf (Document.asOneOf Kind.ofName?)) <*>
    .optional "truncate_units" base.truncateUnits asVocabulary <*>
    .optional "interval_units" base.intervalUnits asVocabulary <*>
    .optional "ordered_aggregates_require_order_by" base.orderRequired Document.asFlag <*>
    .optional "correlation_modes" base.correlationModes
      (Document.asListOf (Document.asOneOf CorrelationMode.ofName?)) <*>
    .optional "native_current_date" base.nativeCurrentDate Document.asFlag <*>
    .optional "aggregate_filter" base.aggregateFilter Document.asFlag

/-- Reads a dialect. -/
def Dialect.ofDocument : Reader δ ε Dialect := Document.asStructure fields

end

def Vocabulary.toJson (v : Vocabulary) : Json :=
  .object (v.toList.map fun (unit, keyword) => (unit.name, .string keyword))

/-- Writes a dialect, with its sets in the order of their types. -/
def Dialect.toJson (d : Dialect) : Json :=
  .object [
    ("name", .string d.name),
    ("unsupported", .array ((Kind.all.filter d.unsupported.contains).map fun k => .string k.name)),
    ("truncate_units", d.truncateUnits.toJson),
    ("interval_units", d.intervalUnits.toJson),
    ("ordered_aggregates_require_order_by", .bool d.orderRequired),
    ("correlation_modes",
      .array ((CorrelationMode.all.filter d.correlationModes.contains).map fun m => .string m.name)),
    ("native_current_date", .bool d.nativeCurrentDate),
    ("aggregate_filter", .bool d.aggregateFilter)]

end SqlPlan
