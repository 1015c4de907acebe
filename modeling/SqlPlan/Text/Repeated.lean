/-!
# Repeated names

The names of columns, and those of dialects, are different from each other.
-/

namespace SqlPlan

/-- The first name that already stands further ahead in the list or among the `seen`. -/
def repeatedName? (seen : List String) : List String → Option String
  | [] => none
  | name :: names => if name ∈ seen then some name else repeatedName? (name :: seen) names

end SqlPlan
