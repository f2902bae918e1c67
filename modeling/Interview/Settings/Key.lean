import Interview.Text.Blank

/-! Dotted keys: the segments of a key stand between its dots, one for each level of nesting. -/

namespace Interview.Key

def segments (key : String) : List String := (Text.cut '.' key.toList).map String.ofList

def ofSegments (path : List String) : String :=
  String.ofList (Text.join ['.'] (path.map String.toList))

/-- The key of an entry below a key; below the empty key it is the entry's own. -/
def below (parent key : String) : String := if parent.isEmpty then key else parent ++ "." ++ key

theorem segments_ne_nil (key : String) : segments key ≠ [] := by
  simp [segments, Text.cut_ne_nil]

theorem ofSegments_segments (key : String) : ofSegments (segments key) = key := by
  have : (List.map String.toList (List.map String.ofList (Text.cut '.' key.toList))) =
      Text.cut '.' key.toList := by simp [Function.comp_def]
  simp [ofSegments, segments, this, Text.join_cut]

end Interview.Key
