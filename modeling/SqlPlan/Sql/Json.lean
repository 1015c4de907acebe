import SqlPlan.Json.Decode
import SqlPlan.Sql.Basic

/-!
# SQL statements in JSON documents

Clauses that a statement or a call does not have are left out, but a case expression always says whether it has an
operand and a default.
-/

namespace SqlPlan.Sql

/-! ### Writing -/

def numberToJson : Option UInt64 → Option Json
  | none => none
  | some n => some (.int n.toNat)

mutual

def Expr.toJson : Expr → Json
  | .star => .string "Star"
  | .column name => .object [("Column", .string name)]
  | .literal text => .object [("Literal", .string text)]
  | .keyword text => .object [("Keyword", .string text)]
  | .cast expr target => .object [("Cast", .object [("expr", expr.toJson), ("to", .string target)])]
  | .binary left op right =>
    .object [("Binary", .object [("left", left.toJson), ("op", .string op), ("right", right.toJson)])]
  | .not expr => .object [("Not", expr.toJson)]
  | .negate expr => .object [("Negate", expr.toJson)]
  | .isNull expr negated => .object [("IsNull", .object [("expr", expr.toJson), ("negated", .bool negated)])]
  | .call function => .object [("Function", callToJson function)]
  | .case operand branches default =>
    .object [("Case", .object
      [("operand", Json.orNull (optionToJson operand)), ("branches", .array (branchesToJson branches)),
        ("default", Json.orNull (optionToJson default))])]
  | .interval value unit => .object [("Interval", .object [("value", value.toJson), ("unit", .string unit)])]
  | .subscript expr index =>
    .object [("Subscript", .object [("expr", expr.toJson), ("index", .int index.toInt)])]
  | .subquery query => .object [("Subquery", query.toJson)]

def callToJson : Call Expr → Json
  | ⟨name, args, order, within, filter⟩ =>
    .object (("name", .string name) :: ("args", .array (exprsToJson args)) ::
      (Json.unlessEmpty "order_by" (keysToJson order) ++ Json.unlessEmpty "within_group" (keysToJson within) ++
        Json.ifPresent "filter" (optionToJson filter)))

def exprsToJson : List Expr → List Json
  | [] => []
  | expr :: exprs => expr.toJson :: exprsToJson exprs

def optionToJson : Option Expr → Option Json
  | none => none
  | some expr => some expr.toJson

def branchesToJson : List (Branch Expr) → List Json
  | [] => []
  | ⟨condition, result⟩ :: branches =>
    .object [("when", condition.toJson), ("then", result.toJson)] :: branchesToJson branches

def keysToJson : List (SortKey Expr) → List Json
  | [] => []
  | ⟨expr, ascending⟩ :: keys =>
    .object [("expr", expr.toJson), ("ascending", .bool ascending)] :: keysToJson keys

def itemsToJson : List (Item Expr) → List Json
  | [] => []
  | ⟨expr, label⟩ :: items =>
    .object (("expr", expr.toJson) :: Json.ifPresent "alias" (label.map .string)) :: itemsToJson items

def Source.toJson : Source → Json
  | .table name => .object [("Table", .string name)]
  | .subquery query label => .object [("Subquery", .object [("query", query.toJson), ("alias", .string label)])]

def Select.toJson : Select → Json
  | ⟨projection, source, selection, groups, order, limit, offset⟩ =>
    .object (("projection", .array (itemsToJson projection)) :: ("from", source.toJson) ::
      (Json.ifPresent "selection" (optionToJson selection) ++ Json.unlessEmpty "group_by" (exprsToJson groups) ++
        Json.unlessEmpty "order_by" (keysToJson order) ++ Json.ifPresent "limit" (numberToJson limit) ++
        Json.ifPresent "offset" (numberToJson offset)))

end

def Fragment.toJson : Fragment → Json
  | .expr e => .object [("expr", e.toJson)]
  | .query q => .object [("query", q.toJson)]

/-! ### Reading -/

section

variable {ε α : Type}

def branchFields (read : Reader Json ε α) : Fields Json ε (Branch α) :=
  Branch.mk <$> .required "when" read <*> .required "then" read

def orderKeyFields (read : Reader Json ε α) : Fields Json ε (SortKey α) :=
  SortKey.mk <$> .required "expr" read <*> .required "ascending" Json.asBool

def itemFields (read : Reader Json ε α) : Fields Json ε (Item α) :=
  Item.mk <$> .required "expr" read <*> .optional "alias" none (Json.asOption Json.asString)

def asKeys (read : Reader Json ε α) : Reader Json ε (List (SortKey α)) :=
  Json.asList (Json.asStructure (orderKeyFields read))

def callFields (read : Reader Json ε α) : Fields Json ε (Call α) :=
  Call.mk <$> .required "name" Json.asString <*> .required "args" (Json.asList read) <*>
    .optional "order_by" [] (asKeys read) <*> .optional "within_group" [] (asKeys read) <*>
    .optional "filter" none (Json.asOption read)

/-- Reads what a statement reads from, given how to read statements. -/
def asSource (query : Reader Json ε Select) : Reader Json ε Source := fun doc => do
  let (name, contents) ← Json.asChoice doc
  match name with
  | "Table" => Json.soleContents (fun doc => (Json.asString doc).map .table) contents
  | "Subquery" =>
    Json.contents .strict (Source.subquery <$> .required "query" query <*> .required "alias" Json.asString) contents
  | _ => .error .malformed

def selectFields (read : Reader Json ε Expr) (query : Reader Json ε Select) : Fields Json ε Select :=
  Select.mk <$> .required "projection" (Json.asList (Json.asStructure (itemFields read))) <*>
    .required "from" (asSource query) <*> .optional "selection" none (Json.asOption read) <*>
    .optional "group_by" [] (Json.asList read) <*> .optional "order_by" [] (asKeys read) <*>
    .optional "limit" none (Json.asOption Json.asUInt64) <*> .optional "offset" none (Json.asOption Json.asUInt64)

/-- Reads the alternative `name` of an expression, given how to read the expressions and statements inside. -/
def exprAlternative (read : Reader Json ε Expr) (query : Reader Json ε Select) (name : String)
    (contents : Option Json) : Except (ReadError ε) Expr :=
  let text (make : String → Expr) := Json.soleContents (fun doc => (Json.asString doc).map make) contents
  let inner (make : Expr → Expr) := Json.soleContents (fun doc => (read doc).map make) contents
  let fields (f : Fields Json ε Expr) := Json.contents .strict f contents
  match name with
  | "Star" => (Json.noContents .strict contents).map fun () => .star
  | "Column" => text .column
  | "Literal" => text .literal
  | "Keyword" => text .keyword
  | "Cast" => fields (.cast <$> .required "expr" read <*> .required "to" Json.asString)
  | "Binary" =>
    fields (.binary <$> .required "left" read <*> .required "op" Json.asString <*> .required "right" read)
  | "Not" => inner .not
  | "Negate" => inner .negate
  | "IsNull" => fields (.isNull <$> .required "expr" read <*> .required "negated" Json.asBool)
  | "Function" => Json.soleContents (fun doc => (Json.asStructure (callFields read) doc).map .call) contents
  | "Case" =>
    fields (.case <$> .optional "operand" none (Json.asOption read) <*>
      .required "branches" (Json.asList (Json.asStructure (branchFields read))) <*>
      .optional "default" none (Json.asOption read))
  | "Interval" => fields (.interval <$> .required "value" read <*> .required "unit" Json.asString)
  | "Subscript" => fields (.subscript <$> .required "expr" read <*> .required "index" Json.asInt64)
  | "Subquery" => Json.soleContents (fun doc => (query doc).map .subquery) contents
  | _ => .error .malformed

mutual

/-- Reads an expression whose document is nested less than `bound` deep. -/
def exprOfNested : Nat → Reader Json ε Expr
  | 0, _ => .error .malformed
  | bound + 1, doc => do
    let (name, contents) ← Json.asChoice doc
    exprAlternative (exprOfNested bound) (selectOfNested bound) name contents

/-- Reads a statement whose document is nested less than `bound` deep. -/
def selectOfNested : Nat → Reader Json ε Select
  | 0, _ => .error .malformed
  | bound + 1, doc => Json.asStructure (selectFields (exprOfNested bound) (selectOfNested bound)) doc

end

/-- Reads an expression. -/
def Expr.ofJson : Reader Json ε Expr := fun doc => exprOfNested (doc.depth + 1) doc

/-- Reads a statement. -/
def Select.ofJson : Reader Json ε Select := fun doc => selectOfNested (doc.depth + 1) doc

/-- Reads a list of keys to sort by. -/
def orderOfJson : Reader Json ε (List (SortKey Expr)) := asKeys Expr.ofJson

/-- Reads a fragment. -/
def Fragment.ofJson : Reader Json ε Fragment := fun doc => do
  let (name, contents) ← Json.asChoice doc
  match name with
  | "expr" => Json.soleContents (fun doc => (Expr.ofJson doc).map .expr) contents
  | "query" => Json.soleContents (fun doc => (Select.ofJson doc).map .query) contents
  | _ => .error .malformed

end

end SqlPlan.Sql
