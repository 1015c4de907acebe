import SqlPlan.Yaml.Basic
import SqlPlan.Yaml.Token

/-!
# Reading YAML

The tokens of a text are read as one document. Where a value is left out, an empty plain scalar stands for it.
-/

namespace SqlPlan.Yaml

/-- Where a value stands. -/
inductive Position where
  /-- Inside brackets, where there are no blocks. -/
  | flow
  /-- In a block. -/
  | block
  /-- At a key of a block mapping or its value, where a list need not be indented. -/
  | mapping
deriving Repr, DecidableEq

def startsWith (ends : List Token) : List Token → Bool
  | [] => false
  | t :: _ => ends.contains t

/-- Skips the comma between two items, unless the brackets end here. -/
def separated? (first : Bool) (closing : Token) (tokens : List Token) : Option (List Token) :=
  if first || startsWith [closing] tokens then some tokens
  else
    match tokens with
    | .flowEntry :: rest => some rest
    | _ => none

mutual

/-- Reads a value. -/
def value? : (fuel : Nat) → Position → List Token → Option (Yaml × List Token)
  | 0, _, _ => none
  | fuel + 1, position, tokens =>
    match tokens with
    | .scalar text plain :: rest => some (.scalar text plain, rest)
    | .flowSequenceStart :: rest => do
      let (items, rest) ← flowItems? fuel true rest
      return (.list items, rest)
    | .flowMappingStart :: rest => do
      let (entries, rest) ← flowEntries? fuel true rest
      return (.mapping entries, rest)
    | .blockSequenceStart :: rest =>
      if position = .flow then none
      else do
        let (items, rest) ← blockItems? fuel rest
        return (.list items, rest)
    | .blockMappingStart :: rest =>
      if position = .flow then none
      else do
        let (entries, rest) ← blockEntries? fuel rest
        return (.mapping entries, rest)
    | .blockEntry :: _ =>
      if position = .mapping then do
        let (items, rest) ← unindentedItems? fuel tokens
        return (.list items, rest)
      else none
    | _ => none

/-- Reads a value, or nothing ahead of one of the tokens `ends`. -/
def valueBefore? : (fuel : Nat) → Position → (ends : List Token) → List Token → Option (Yaml × List Token)
  | 0, _, _, _ => none
  | fuel + 1, position, ends, tokens =>
    if startsWith ends tokens then some (.empty, tokens) else value? fuel position tokens

/-- Reads the value behind a key, if there is any. -/
def valueOfKey? : (fuel : Nat) → Position → (ends : List Token) → List Token → Option (Yaml × List Token)
  | 0, _, _, _ => none
  | fuel + 1, position, ends, tokens =>
    match tokens with
    | .value :: rest => valueBefore? fuel position ends rest
    | _ => some (.empty, tokens)

/-- Reads the items of a list up to the end of its block. -/
def blockItems? : (fuel : Nat) → List Token → Option (List Yaml × List Token)
  | 0, _ => none
  | fuel + 1, tokens =>
    match tokens with
    | .blockEntry :: rest => do
      let (item, rest) ← valueBefore? fuel .block [.blockEntry, .blockEnd] rest
      let (items, rest) ← blockItems? fuel rest
      return (item :: items, rest)
    | .blockEnd :: rest => some ([], rest)
    | _ => none

/-- Reads the items of a list that has no block of its own. -/
def unindentedItems? : (fuel : Nat) → List Token → Option (List Yaml × List Token)
  | 0, _ => none
  | fuel + 1, tokens =>
    match tokens with
    | .blockEntry :: rest => do
      let (item, rest) ← valueBefore? fuel .block [.blockEntry, .key, .value, .blockEnd] rest
      let (items, rest) ← unindentedItems? fuel rest
      return (item :: items, rest)
    | _ => some ([], tokens)

/-- Reads the entries of a mapping up to the end of its block. -/
def blockEntries? : (fuel : Nat) → List Token → Option (List (Yaml × Yaml) × List Token)
  | 0, _ => none
  | fuel + 1, tokens =>
    match tokens with
    | .key :: rest => do
      let (key, rest) ← valueBefore? fuel .mapping [.key, .value, .blockEnd] rest
      let (value, rest) ← valueOfKey? fuel .mapping [.key, .value, .blockEnd] rest
      let (entries, rest) ← blockEntries? fuel rest
      return ((key, value) :: entries, rest)
    | .blockEnd :: rest => some ([], rest)
    | _ => none

/-- Reads the items of a list up to its bracket. -/
def flowItems? : (fuel : Nat) → (first : Bool) → List Token → Option (List Yaml × List Token)
  | 0, _, _ => none
  | fuel + 1, first, tokens => do
    let tokens ← separated? first .flowSequenceEnd tokens
    match tokens with
    | .flowSequenceEnd :: rest => some ([], rest)
    | .key :: rest =>
      let (entry, rest) ← flowPair? fuel rest
      let (items, rest) ← flowItems? fuel false rest
      return (.mapping [entry] :: items, rest)
    | _ =>
      let (item, rest) ← value? fuel .flow tokens
      let (items, rest) ← flowItems? fuel false rest
      return (item :: items, rest)

/-- Reads an entry among the items of a list. Where the key is left out, the token behind it is skipped. -/
def flowPair? : (fuel : Nat) → List Token → Option ((Yaml × Yaml) × List Token)
  | 0, _ => none
  | fuel + 1, tokens => do
    let (key, rest) ←
      if startsWith [.value, .flowEntry, .flowSequenceEnd] tokens then some (.empty, tokens.drop 1)
      else value? fuel .flow tokens
    let (value, rest) ← valueOfKey? fuel .flow [.flowEntry, .flowSequenceEnd] rest
    return ((key, value), rest)

/-- Reads the entries of a mapping up to its brace. -/
def flowEntries? : (fuel : Nat) → (first : Bool) → List Token → Option (List (Yaml × Yaml) × List Token)
  | 0, _, _ => none
  | fuel + 1, first, tokens => do
    let tokens ← separated? first .flowMappingEnd tokens
    match tokens with
    | .flowMappingEnd :: rest => some ([], rest)
    | .key :: rest =>
      let (key, rest) ← valueBefore? fuel .flow [.value, .flowEntry, .flowMappingEnd] rest
      let (value, rest) ← valueOfKey? fuel .flow [.flowEntry, .flowMappingEnd] rest
      let (entries, rest) ← flowEntries? fuel false rest
      return ((key, value) :: entries, rest)
    | _ =>
      let (key, rest) ← value? fuel .flow tokens
      let (entries, rest) ← flowEntries? fuel false rest
      return ((key, .empty) :: entries, rest)

end

/-- Reads the content of a document. -/
def content? (tokens : List Token) : Option (Yaml × List Token) :=
  if tokens.isEmpty || startsWith [.documentStart, .documentEnd] tokens then some (.empty, tokens)
  else value? (4 * tokens.length) .block tokens

/-- Reads a text that holds at most one document. -/
def ofText? (text : String) : Option Yaml := do
  let tokens ← tokens? text
  let (doc, rest) ← match tokens with
    | [] => some (.empty, [])
    | .documentStart :: rest => content? rest
    | tokens => value? (4 * tokens.length) .block tokens
  if (rest.dropWhile (· == .documentEnd)).isEmpty then some doc else none

end SqlPlan.Yaml
