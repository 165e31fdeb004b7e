import VirtualShell.Json.Basic
import VirtualShell.Json.Quoted
import VirtualShell.Number.Scaled
import VirtualShell.Text.Search

/-!
# JSON tokens

A document as the sequence of its marks and scalars. White space separates tokens and leaves no
trace. A number must follow the grammar of the format and be finite in the sense of
`VirtualShell.Number.Scaled`; apart from that its text is kept as it stands.
-/

namespace VirtualShell.Json

/-- A mark or a scalar. -/
inductive Token
  | scalar (value : Scalar)
  | arrayOpen
  | arrayClose
  | objectOpen
  | objectClose
  | comma
  | colon
  deriving DecidableEq

namespace Token

/-- The characters that may stand between tokens. -/
def isSpace (c : Char) : Bool :=
  c == ' ' || c == '\t' || c == '\n' || c == '\r'

/-- The token that one character is. -/
def mark? : Char → Option Token
  | '[' => some arrayOpen
  | ']' => some arrayClose
  | '{' => some objectOpen
  | '}' => some objectClose
  | ',' => some comma
  | ':' => some colon
  | _ => none

/-- The characters that numbers are made of. -/
def isNumeric (c : Char) : Bool :=
  c.isDigit || c == '+' || c == '-' || c == '.' || c == 'e' || c == 'E'

/-- Whether digits are a whole part: no digit follows a zero at the beginning. -/
def isWhole : List Char → Bool
  | [] => false
  | '0' :: rest => rest.isEmpty
  | _ => true

/-- The exponent that follows the digits of a number. -/
def exponent? : List Char → Option Int
  | [] => some 0
  | mark :: rest =>
    let digits := match rest with
      | '+' :: digits => digits
      | '-' :: digits => digits
      | digits => digits
    if (mark == 'e' || mark == 'E') && !digits.isEmpty && digits.all Char.isDigit then
      some (Number.Decimal.exponentValue rest)
    else none

/-- The number that a text without a sign spells. -/
def magnitude? (cs : List Char) : Option Number.Scaled :=
  let whole := cs.takeWhile Char.isDigit
  if !isWhole whole then none
  else
    match cs.dropWhile Char.isDigit with
    | '.' :: rest =>
      let fraction := rest.takeWhile Char.isDigit
      if fraction.isEmpty then none
      else (exponent? (rest.dropWhile Char.isDigit)).map (.ofParts whole fraction)
    | rest => (exponent? rest).map (.ofParts whole [])

/-- Whether a text is a number of the format within range, perhaps a negative one. -/
def isNumber (cs : List Char) : Bool :=
  let unsigned := match cs with
    | '-' :: rest => rest
    | cs => cs
  (magnitude? unsigned).any Number.Scaled.isFinite

/-- The words that are values. -/
def keywords : List (String × Scalar) :=
  [("null", .null), ("true", .bool true), ("false", .bool false)]

/-- The word at the beginning of a text, and the rest. -/
def keyword? (cs : List Char) : Option (Token × List Char) :=
  keywords.findSome? fun (word, value) =>
    (Text.after? word.toList cs).map fun rest => (scalar value, rest)

/-- The token at the beginning of a text that does not begin with a space, and the rest. -/
def next? (c : Char) (rest : List Char) : Option (Token × List Char) :=
  match mark? c with
  | some token => some (token, rest)
  | none =>
    if c = '"' then
      (Quoted.scan rest).map fun (content, rest) => (scalar (.text (String.ofList content)), rest)
    else if isNumeric c then
      let literal := c :: rest.takeWhile isNumeric
      if isNumber literal then
        some (scalar (.number (String.ofList literal)), rest.dropWhile isNumeric)
      else none
    else keyword? (c :: rest)

/-- A token takes at least one character. -/
theorem next?_shorter {c : Char} {cs rest : List Char} {token : Token}
    (h : next? c cs = some (token, rest)) : rest.length ≤ cs.length := by
  unfold next? at h
  split at h
  · simp_all
  split at h
  · obtain ⟨⟨content, rest'⟩, hscan, heq⟩ := Option.map_eq_some_iff.1 h
    have := Quoted.scan_shorter hscan
    simp_all
    omega
  split at h
  · simp only at h
    split at h
    · obtain ⟨-, rfl⟩ : _ ∧ cs.dropWhile isNumeric = rest := by simpa using h
      exact (List.dropWhile_suffix isNumeric).length_le
    · simp at h
  · obtain ⟨⟨word, value⟩, hmem, heq⟩ := List.exists_of_findSome?_eq_some h
    obtain ⟨rest', hafter, heq⟩ := Option.map_eq_some_iff.1 heq
    have htext := Text.after?_eq_some_iff.1 hafter
    have hlength := congrArg List.length htext
    simp [keywords] at hmem
    rcases hmem with ⟨rfl, -⟩ | ⟨rfl, -⟩ | ⟨rfl, -⟩ <;> simp_all <;> omega

/-- The tokens of a text. -/
def scan : List Char → Option (List Token)
  | [] => some []
  | c :: rest =>
    if isSpace c then scan rest
    else
      match _h : next? c rest with
      | some (token, rest) => (scan rest).map (token :: ·)
      | none => none
termination_by cs => cs.length
decreasing_by
  · simp
  · exact Nat.lt_succ_of_le (next?_shorter _h)

end Token

end VirtualShell.Json
