import Mathlib.Logic.Basic

namespace valence

/-- The trait object `valence::ValenceFactory`: a session is built from actor
JSON or refused with an error text. -/
structure ValenceFactory (Value Valence : Type) where
  build : Value → Except String Valence

end valence

namespace serde_json

/-- The conversions of `serde_json` between text, JSON values and
`valence::Actor`. -/
structure Codec (Value Actor : Type) where
  from_str : String → Except String Value
  to_string : Value → String
  from_value : Value → Except String Actor
  to_value : Actor → Except String Value

end serde_json
