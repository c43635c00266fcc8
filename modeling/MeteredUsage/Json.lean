import Mathlib.Data.List.Basic

/-! Parsed JSON values, as the gateways' payloads and the stored answers hold them. -/

namespace MeteredUsage.Values

inductive Json where
  | null
  | bool (value : Bool)
  /-- A number, as it was written. -/
  | number (text : String)
  | string (text : String)
  | array (items : List Json)
  | object (fields : List (String × Json))
deriving Repr, Inhabited

end MeteredUsage.Values
