/-!
# Terms and drafts

A rule arrives as text: triples of field, operator and value, grouped by the AND-groups they were written in. Nothing is
checked yet; a draft may hold blank fields, unknown operators and empty groups.
-/

namespace GateRules

/-- One `field operator value` triple exactly as it was written. -/
structure Term where
  field : String
  operator : String
  value : String
deriving DecidableEq

/-- The AND-groups of a rule exactly as they were written; the rule holds when one of its groups does. -/
abbrev Draft := List (List Term)

end GateRules
