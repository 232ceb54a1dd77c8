/-!
# Replacing text

Occurrences are found from the left and do not overlap.
-/

namespace SourceRecovery.Text

/-- Whether a pattern occurs in a text. -/
def occursIn (pattern : List Char) : List Char → Bool
  | [] => pattern.isEmpty
  | c :: rest => pattern.isPrefixOf (c :: rest) || occursIn pattern rest

/-- The text with every occurrence of a pattern replaced. -/
def replaceAll (pattern new : List Char) : List Char → List Char
  | [] => []
  | c :: rest =>
    if pattern.isPrefixOf (c :: rest) then
      new ++ replaceAll pattern new (rest.drop (pattern.length - 1))
    else c :: replaceAll pattern new rest
termination_by cs => cs.length

/-- The text with the first occurrence of a pattern replaced. -/
def replaceFirst (pattern new : List Char) : List Char → List Char
  | [] => []
  | c :: rest =>
    if pattern.isPrefixOf (c :: rest) then new ++ rest.drop (pattern.length - 1)
    else c :: replaceFirst pattern new rest

end SourceRecovery.Text
