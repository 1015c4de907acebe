/-!
# Quoted SQL text

An identifier stands between double quotes and a string between single quotes. Inside, the quote character itself is
written twice and every other character once, so no content can end the quoted token early.
-/

namespace SqlPlan

/-- The characters of a text with the quote character `q` written twice. -/
def doubled (q : Char) (cs : List Char) : List Char :=
  cs.flatMap fun c => if c = q then [q, q] else [c]

/-- A text between two quote characters `q`. -/
def quoted (q : Char) (text : String) : String :=
  String.ofList (q :: (doubled q text.toList ++ [q]))

def quoteIdent (name : String) : String := quoted '"' name

def quoteString (text : String) : String := quoted '\'' text

@[simp] theorem doubled_nil (q : Char) : doubled q [] = [] := rfl

/-- A quote character is doubled, and others are left alone. -/
theorem doubled_cons (q c : Char) (cs : List Char) :
    doubled q (c :: cs) = (if c = q then [q, q] else [c]) ++ doubled q cs := by
  simp [doubled]

/-- A text is quoted by a quote character on both sides, and doubling those inside. -/
theorem toList_quoted (q : Char) (text : String) :
    (quoted q text).toList = q :: (doubled q text.toList ++ [q]) := by
  simp [quoted]

end SqlPlan
