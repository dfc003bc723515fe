/-
# JSON values

The values in which models and trees are dumped. Members of an object keep the
order in which they are given; the only numbers are counts and positions.
-/

namespace JavaStructure

/-- A JSON value. -/
inductive Json where
  | null
  | bool (value : Bool)
  | number (value : Nat)
  | string (value : String)
  | array (items : List Json)
  | object (members : List (String × Json))

namespace Json

/-- A string, or null where there is none. -/
def ofOption : Option String → Json
  | some text => .string text
  | none => .null

end Json

end JavaStructure
