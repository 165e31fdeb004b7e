/-!
# TOML values

A document is a table. How a table came to be decides whether later lines may add to it, so every
table carries its origin.
-/

namespace VirtualShell

/-- What brought a table into being. -/
inductive TableOrigin
  /-- A header that names it. -/
  | header
  /-- A header that names a table inside it. -/
  | outer
  /-- A dotted key that passes through it. -/
  | dotted
  /-- A table between braces. -/
  | inline
  deriving DecidableEq

/-- A TOML value. Numbers with a fraction or an exponent, dates and times are kept as they are
spelled. The tables of an array of tables are kept newest first, and there is at least one. -/
inductive Toml
  | text (content : String)
  | integer (value : Int)
  | float (literal : String)
  | bool (value : Bool)
  | moment (literal : String)
  | array (items : List Toml)
  | table (origin : TableOrigin) (entries : List (String × Toml))
  | tables (newest : List (String × Toml)) (older : List (List (String × Toml)))

end VirtualShell
