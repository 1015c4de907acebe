/-!
# Texts in order

Texts are ordered by the code points of their characters.
-/

namespace SqlPlan

/-- The texts of a list in order. -/
def ordered (texts : List String) : List String := texts.mergeSort fun a b => !(b < a)

end SqlPlan
