import SqlPlan.Sql.Basic
import SqlPlan.Text.Quoted

/-!
# The text of SQL statements

Every operator with operands stands in parentheses, so that no precedence matters.
-/

namespace SqlPlan.Sql

def joined (texts : List String) : String := ", ".intercalate texts

/-- A clause that is left out when it has no items. -/
def clause (opening : String) (texts : List String) (closing : String) : String :=
  if texts.isEmpty then "" else opening ++ joined texts ++ closing

/-- An item of a projection. A column that keeps its name gets no second one. -/
def labelled (expr : Expr) (text : String) : Option String → String
  | none => text
  | some label =>
    match expr with
    | .column name => if name = label then text else text ++ " AS " ++ quoteIdent label
    | _ => text ++ " AS " ++ quoteIdent label

def numberClause (opening : String) : Option UInt64 → String
  | none => ""
  | some n => opening ++ toString n.toNat

def signedText (n : Int64) : String := toString n.toInt

/-- An interval with its value, which is quoted if it is a literal. -/
def intervalText (value : Expr) (text : String) (unit : String) : String :=
  match value with
  | .literal digits => "INTERVAL " ++ quoteString digits ++ " " ++ unit
  | _ => "INTERVAL (" ++ text ++ ") " ++ unit

mutual

def Expr.text : Expr → String
  | .star => "*"
  | .column name => quoteIdent name
  | .literal text => text
  | .keyword text => text
  | .cast expr target => "CAST(" ++ expr.text ++ " AS " ++ target ++ ")"
  | .binary left op right => "(" ++ left.text ++ " " ++ op ++ " " ++ right.text ++ ")"
  | .not expr => "(NOT " ++ expr.text ++ ")"
  | .negate expr => "(-" ++ expr.text ++ ")"
  | .isNull expr negated => "(" ++ expr.text ++ (if negated then " IS NOT NULL)" else " IS NULL)")
  | .call function => callText function
  | .case operand branches default =>
    "CASE" ++ optionText " " operand "" ++ branchesText branches ++ optionText " ELSE " default "" ++ " END"
  | .interval value unit => intervalText value value.text unit
  | .subscript expr index => "(" ++ expr.text ++ ")[" ++ signedText index ++ "]"
  | .subquery query => "(" ++ query.text ++ ")"

def callText : Call Expr → String
  | ⟨name, args, order, within, filter⟩ =>
    name ++ "(" ++ joined (exprTexts args) ++ clause " ORDER BY " (keyTexts order) "" ++ ")" ++
      clause " WITHIN GROUP (ORDER BY " (keyTexts within) ")" ++ optionText " FILTER (WHERE " filter ")"

def exprTexts : List Expr → List String
  | [] => []
  | expr :: exprs => expr.text :: exprTexts exprs

def optionText (opening : String) : Option Expr → (closing : String) → String
  | none, _ => ""
  | some expr, closing => opening ++ expr.text ++ closing

def branchesText : List (Branch Expr) → String
  | [] => ""
  | ⟨condition, result⟩ :: branches =>
    " WHEN " ++ condition.text ++ " THEN " ++ result.text ++ branchesText branches

def keyTexts : List (SortKey Expr) → List String
  | [] => []
  | ⟨expr, ascending⟩ :: keys => (expr.text ++ (if ascending then " ASC" else " DESC")) :: keyTexts keys

def itemTexts : List (Item Expr) → List String
  | [] => []
  | ⟨expr, label⟩ :: items => labelled expr expr.text label :: itemTexts items

def Source.text : Source → String
  | .table name => quoteIdent name
  | .subquery query label => "(" ++ query.text ++ ") AS " ++ label

def Select.text : Select → String
  | ⟨projection, source, selection, groups, order, limit, offset⟩ =>
    "SELECT " ++ joined (itemTexts projection) ++ " FROM " ++ source.text ++ optionText " WHERE " selection "" ++
      clause " GROUP BY " (exprTexts groups) "" ++ clause " ORDER BY " (keyTexts order) "" ++
      numberClause " LIMIT " limit ++ numberClause " OFFSET " offset

end

def Fragment.text : Fragment → String
  | .expr e => e.text
  | .query q => q.text

end SqlPlan.Sql
