import VirtualShell.Number.Hexadecimal

/-!
# Texts in JSON

Between double quotes, a quote, a backslash and a control character are written as escapes and every
other character stands for itself. `encode` writes only the escapes it must; `scan` reads all that
the format allows, and so refuses bare control characters, unknown escapes and surrogates that are
not a pair.
-/

namespace VirtualShell.Json.Quoted

/-- How one character is written between quotes. -/
def escape (c : Char) : List Char :=
  match c with
  | '"' => ['\\', '"']
  | '\\' => ['\\', '\\']
  | '\x08' => ['\\', 'b']
  | '\x0c' => ['\\', 'f']
  | '\n' => ['\\', 'n']
  | '\r' => ['\\', 'r']
  | '\t' => ['\\', 't']
  | c =>
    if c.toNat < 0x20 then
      ['\\', 'u', '0', '0', Number.hexDigit (c.toNat / 16), Number.hexDigit (c.toNat % 16)]
    else [c]

/-- The text between double quotes. -/
def encode (s : String) : String :=
  String.ofList ('"' :: (s.toList.flatMap escape ++ ['"']))

/-- The 16-bit unit that four hexadecimal digits spell. -/
def unit? (a b c d : Char) : Option Nat := do
  let a ← Number.hexValue? a
  let b ← Number.hexValue? b
  let c ← Number.hexValue? c
  let d ← Number.hexValue? d
  return ((a * 16 + b) * 16 + c) * 16 + d

/-- A unit that begins a pair. -/
def isLeading (unit : Nat) : Bool := 0xD800 ≤ unit && unit < 0xDC00

/-- A unit that ends a pair. -/
def isTrailing (unit : Nat) : Bool := 0xDC00 ≤ unit && unit < 0xE000

/-- The character that a pair of units encodes. -/
def pairChar (leading trailing : Nat) : Char :=
  Char.ofNat (0x10000 + (leading - 0xD800) * 0x400 + (trailing - 0xDC00))

/-- The character that an escape of one letter stands for. -/
def escaped? : Char → Option Char
  | '"' => some '"'
  | '\\' => some '\\'
  | '/' => some '/'
  | 'b' => some '\x08'
  | 'f' => some '\x0c'
  | 'n' => some '\n'
  | 'r' => some '\r'
  | 't' => some '\t'
  | _ => none

/-- Puts a character before what was read. -/
def prepend (c : Char) : Option (List Char × List Char) → Option (List Char × List Char) :=
  Option.map fun (content, rest) => (c :: content, rest)

/-- Reads what follows an opening quote: the content up to the closing quote, and the rest. -/
def scan : List Char → Option (List Char × List Char)
  | [] => none
  | '"' :: rest => some ([], rest)
  | '\\' :: 'u' :: a :: b :: c :: d :: rest =>
    match unit? a b c d with
    | none => none
    | some unit =>
      if isLeading unit then
        match rest with
        | '\\' :: 'u' :: e :: f :: g :: h :: rest =>
          match unit? e f g h with
          | none => none
          | some trailing =>
            if isTrailing trailing then prepend (pairChar unit trailing) (scan rest) else none
        | _ => none
      else if isTrailing unit then none
      else prepend (Char.ofNat unit) (scan rest)
  | '\\' :: c :: rest =>
    match escaped? c with
    | none => none
    | some c => prepend c (scan rest)
  | c :: rest => if c.toNat < 0x20 then none else prepend c (scan rest)

/-- A character in front of what was read leaves the same rest. -/
theorem length_lt_of_prepend {c : Char} {content rest : List Char} {n : Nat}
    {behind : Option (List Char × List Char)}
    (hbehind : ∀ {tail left : List Char}, behind = some (tail, left) → left.length < n)
    (h : prepend c behind = some (content, rest)) : rest.length < n := by
  obtain ⟨⟨tail, left⟩, hread, heq⟩ := Option.map_eq_some_iff.1 h
  obtain ⟨-, rfl⟩ := Prod.mk.inj heq
  exact hbehind hread

/-- Reading a text consumes at least its closing quote. -/
theorem scan_shorter {cs content rest : List Char} (h : scan cs = some (content, rest)) :
    rest.length < cs.length := by
  fun_induction scan cs generalizing content rest with
  | case2 =>
    obtain ⟨-, rfl⟩ : _ ∧ _ = rest := by simpa using h
    exact Nat.lt_succ_self _
  | case5 => rename_i ih; have := length_lt_of_prepend ih h; simp only [List.length_cons]; omega
  | case9 => rename_i ih; have := length_lt_of_prepend ih h; simp only [List.length_cons]; omega
  | case11 => rename_i ih; have := length_lt_of_prepend ih h; simp only [List.length_cons]; omega
  | case13 => rename_i ih; exact Nat.lt_succ_of_lt (length_lt_of_prepend ih h)
  | _ => simp at h

end VirtualShell.Json.Quoted
