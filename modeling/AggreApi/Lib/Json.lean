import Mathlib

/-!
# Decoded JSON

What a JSON column or request body is after decoding. An object is the list of its members in
the order the map is walked, which the language leaves open.
-/

namespace AggreApi

/-- A decoded JSON value; a number is kept as the text it prints as. -/
inductive Json where
  | null
  | bool (b : Bool)
  | num (text : String)
  | str (s : String)
  | arr (elems : List Json)
  | obj (members : List (String × Json))
  deriving Inhabited

abbrev JsonObject := List (String × Json)

/-- Puts a member under its key, in place of the one that is there. -/
def JsonObject.setMember (o : JsonObject) (k : String) (v : Json) : JsonObject :=
  match o with
  | [] => [(k, v)]
  | m :: rest => if m.1 = k then (k, v) :: rest else m :: JsonObject.setMember rest k v

end AggreApi
