import VirtualShell.Json.Printer
import VirtualShell.Json.Token

/-!
# What a printed value spells

`Json.tokens` are the tokens of a value, in order and without layout. `Spells` says that a text is read
as some tokens wherever it stands, whatever follows it; this is what makes texts that spell tokens
compose. The main statements are `spells_indentedAt`, that the indented layout of a value spells the tokens
of the value, at every depth, and `spells_compact`, that the compact layout does. The compact layout is
moreover a single line, whatever texts the value holds (`oneLine_compact`).

Only values whose scalars are texts are treated (`Textual`). A number is read as far as its characters
go, so that what it spells depends on what follows.
-/

namespace VirtualShell.Json

namespace Quoted

/-- The unit that the four digits of a control character spell. -/
private theorem unit?_control {n : Nat} (h : n < 0x20) :
    unit? '0' '0' (Number.hexDigit (n / 16)) (Number.hexDigit (n % 16)) = some n := by
  have hzero : Number.hexValue? '0' = some 0 := by decide
  have hvalue : ((0 * 16 + 0) * 16 + n / 16) * 16 + n % 16 = n := by omega
  rw [unit?, hzero, Number.hexValue?_hexDigit (n / 16) (by omega),
    Number.hexValue?_hexDigit (n % 16) (by omega)]
  exact congrArg some hvalue

/-- An escape is read as its character. -/
theorem scan_escape (c : Char) (rest : List Char) :
    scan (escape c ++ rest) = prepend c (scan rest) := by
  rw [escape.eq_def]
  split
  next => rfl
  next => rfl
  next => rfl
  next => rfl
  next => rfl
  next => rfl
  next => rfl
  next hquote hbackslash _ _ _ _ _ =>
    split
    next hcontrol =>
      have hleading : isLeading c.toNat = false := by
        rw [isLeading, Bool.and_eq_false_iff, decide_eq_false_iff_not]
        exact .inl (by omega)
      have htrailing : isTrailing c.toNat = false := by
        rw [isTrailing, Bool.and_eq_false_iff, decide_eq_false_iff_not]
        exact .inl (by omega)
      simp only [List.cons_append, List.nil_append, scan, unit?_control hcontrol, hleading,
        htrailing, Bool.false_eq_true, if_false, Char.ofNat_toNat]
    next hprintable =>
      rw [List.cons_append, List.nil_append, scan, if_neg hprintable]
      · exact hquote
      · exact fun _ _ _ _ _ h _ => hbackslash h
      · exact fun _ _ h _ => hbackslash h

/-- Reading a written text stops at its closing quote. -/
theorem scan_encoded (cs rest : List Char) :
    scan (cs.flatMap escape ++ '"' :: rest) = some (cs, rest) := by
  induction cs with
  | nil => rfl
  | cons c cs ih =>
    rw [List.flatMap_cons, List.append_assoc, scan_escape, ih]
    rfl

end Quoted

/-! ## Tokens -/

mutual

/-- The tokens of a value. -/
def tokens : Json → List Token
  | scalar value => [.scalar value]
  | array items => .arrayOpen :: (itemTokens items ++ [.arrayClose])
  | object members => .objectOpen :: (memberTokens members ++ [.objectClose])

/-- The tokens of items, with the commas between them. -/
def itemTokens : List Json → List Token
  | [] => []
  | [item] => tokens item
  | item :: next :: rest => tokens item ++ .comma :: itemTokens (next :: rest)

/-- The tokens of members, with the commas between them. -/
def memberTokens : List (String × Json) → List Token
  | [] => []
  | [(name, value)] => .scalar (.text name) :: .colon :: tokens value
  | (name, value) :: next :: rest =>
    .scalar (.text name) :: .colon :: (tokens value ++ .comma :: memberTokens (next :: rest))

end

mutual

/-- All scalars are texts. -/
def Textual : Json → Prop
  | scalar value => ∃ content, value = .text content
  | array items => TextualItems items
  | object members => TextualMembers members

/-- All scalars in items are texts. -/
def TextualItems : List Json → Prop
  | [] => True
  | item :: rest => Textual item ∧ TextualItems rest

/-- All scalars in members are texts. -/
def TextualMembers : List (String × Json) → Prop
  | [] => True
  | (_, value) :: rest => Textual value ∧ TextualMembers rest

end

/-! ## Texts that spell tokens -/

/-- A text is read as some tokens, whatever follows it. -/
def Spells (text : String) (tokens : List Token) : Prop :=
  ∀ rest, Token.scan (text.toList ++ rest) = (Token.scan rest).map (tokens ++ ·)

theorem Spells.append {text text' : String} {ts ts' : List Token} (h : Spells text ts)
    (h' : Spells text' ts') : Spells (text ++ text') (ts ++ ts') := by
  intro rest
  rw [String.toList_append, List.append_assoc, h, h', Option.map_map]
  congr 1
  funext us
  exact (List.append_assoc ts ts' us).symm

/-- Space spells nothing. -/
theorem spells_space {text : String} (h : text.toList.all Token.isSpace = true) :
    Spells text [] := by
  intro rest
  simp only [List.nil_append, Option.map_id']
  generalize text.toList = cs at h ⊢
  induction cs with
  | nil => rfl
  | cons c cs ih =>
    rw [List.all_cons, Bool.and_eq_true] at h
    rw [List.cons_append, Token.scan, if_pos h.1]
    exact ih h.2

theorem spells_empty : Spells "" [] := spells_space rfl

theorem spells_newline (depth : Nat) : Spells (newline depth) [] := by
  refine spells_space (List.all_eq_true.2 fun c hc => ?_)
  rw [newline, String.toList_ofList, List.mem_cons, List.mem_replicate] at hc
  rcases hc with rfl | ⟨-, rfl⟩ <;> rfl

/-- A token that begins with a character other than space, and what is left after it. -/
theorem scan_of_next? {c : Char} {cs rest : List Char} {token : Token}
    (hspace : Token.isSpace c = false) (h : Token.next? c cs = some (token, rest)) :
    Token.scan (c :: cs) = (Token.scan rest).map (token :: ·) := by
  rw [Token.scan, if_neg (by simp [hspace])]
  split
  next token' rest' h' =>
    rw [h] at h'
    cases h'
    rfl
  next h' =>
    rw [h] at h'
    cases h'

theorem spells_mark {c : Char} {token : Token} (hspace : Token.isSpace c = false)
    (h : Token.mark? c = some token) : Spells (String.ofList [c]) [token] := by
  intro rest
  rw [String.toList_ofList, List.cons_append]
  exact scan_of_next? hspace (by rw [Token.next?, h]; rfl)

theorem spells_encode (content : String) :
    Spells (Quoted.encode content) [.scalar (.text content)] := by
  intro rest
  rw [Quoted.encode, String.toList_ofList, List.cons_append, List.append_assoc]
  refine scan_of_next? rfl ?_
  rw [Token.next?, if_pos rfl]
  simp only [Token.mark?]
  rw [List.singleton_append, Quoted.scan_encoded, Option.map_some, String.ofList_toList]
  rfl

theorem Spells.inArray {text : String} {ts : List Token} (h : Spells text ts) :
    Spells ("[" ++ text ++ "]") (.arrayOpen :: (ts ++ [.arrayClose])) :=
  ((spells_mark (c := '[') rfl rfl).append h).append (spells_mark (c := ']') rfl rfl)

theorem Spells.inObject {text : String} {ts : List Token} (h : Spells text ts) :
    Spells ("\x7b" ++ text ++ "\x7d") (.objectOpen :: (ts ++ [.objectClose])) :=
  ((spells_mark (c := '{') rfl rfl).append h).append (spells_mark (c := '}') rfl rfl)

/-- A name, the colon and the space behind it, and a value. -/
theorem Spells.named {text : String} {ts : List Token} (h : Spells text ts) (name : String) :
    Spells (Quoted.encode name ++ ": " ++ text) (.scalar (.text name) :: .colon :: ts) := by
  have hcolon : Spells (String.ofList [':'] ++ String.ofList [' ']) [.colon] :=
    (spells_mark rfl rfl).append (spells_space rfl)
  exact ((spells_encode name).append hcolon).append h

/-- A text, a comma and another text. -/
theorem Spells.followed {text text' : String} {ts ts' : List Token} (h : Spells text ts)
    (h' : Spells text' ts') : Spells (text ++ "," ++ text') (ts ++ .comma :: ts') := by
  have hcomma : Spells (String.ofList [',']) [.comma] := spells_mark rfl rfl
  have hall := (h.append hcomma).append h'
  rwa [List.append_assoc, List.singleton_append] at hall

mutual

/-- The indented layout of a value spells its tokens. -/
theorem spells_indentedAt : ∀ (value : Json) (depth : Nat), Textual value →
    Spells (indentedAt depth value) (tokens value)
  | scalar value, depth, h => by
    rw [Textual] at h
    obtain ⟨content, rfl⟩ := h
    rw [indentedAt, tokens]
    exact spells_encode content
  | array [], depth, _ => by
    have htext : "[]" = "[" ++ "" ++ "]" := by decide
    rw [indentedAt, tokens, htext]
    exact spells_empty.inArray
  | array (item :: rest), depth, h => by
    rw [Textual] at h
    have hlines := (spells_indentedItems (item :: rest) (depth + 1) h).append (spells_newline depth)
    rw [List.append_nil] at hlines
    have hall := hlines.inArray
    rw [← String.append_assoc] at hall
    rw [indentedAt, tokens]
    exact hall
  | object [], depth, _ => by
    have htext : "\x7b\x7d" = "\x7b" ++ "" ++ "\x7d" := by decide
    rw [indentedAt, tokens, htext]
    exact spells_empty.inObject
  | object (member :: rest), depth, h => by
    rw [Textual] at h
    have hlines :=
      (spells_indentedMembers (member :: rest) (depth + 1) h).append (spells_newline depth)
    rw [List.append_nil] at hlines
    have hall := hlines.inObject
    rw [← String.append_assoc] at hall
    rw [indentedAt, tokens]
    exact hall

theorem spells_indentedItems : ∀ (items : List Json) (depth : Nat), TextualItems items →
    Spells (indentedItems depth items) (itemTokens items)
  | [], depth, _ => by
    rw [indentedItems, itemTokens]
    exact spells_empty
  | [item], depth, h => by
    rw [TextualItems] at h
    rw [indentedItems, itemTokens]
    exact (spells_newline depth).append (spells_indentedAt item depth h.1)
  | item :: next :: rest, depth, h => by
    rw [TextualItems] at h
    have hitem := (spells_newline depth).append (spells_indentedAt item depth h.1)
    rw [indentedItems, itemTokens]
    exact hitem.followed (spells_indentedItems (next :: rest) depth h.2)

theorem spells_indentedMembers : ∀ (members : List (String × Json)) (depth : Nat),
    TextualMembers members → Spells (indentedMembers depth members) (memberTokens members)
  | [], depth, _ => by
    rw [indentedMembers, memberTokens]
    exact spells_empty
  | [(name, value)], depth, h => by
    rw [TextualMembers] at h
    have hmember := (spells_newline depth).append ((spells_indentedAt value depth h.1).named name)
    rw [indentedMembers, memberTokens]
    rwa [← String.append_assoc, ← String.append_assoc] at hmember
  | (name, value) :: next :: rest, depth, h => by
    rw [TextualMembers] at h
    have hmember := (spells_newline depth).append ((spells_indentedAt value depth h.1).named name)
    have hall := hmember.followed (spells_indentedMembers (next :: rest) depth h.2)
    rw [indentedMembers, memberTokens]
    rwa [← String.append_assoc, ← String.append_assoc] at hall

end

/-! ## The compact layout -/

/-- A name, the colon and a value. -/
theorem Spells.compactNamed {text : String} {ts : List Token} (h : Spells text ts) (name : String) :
    Spells (Quoted.encode name ++ ":" ++ text) (.scalar (.text name) :: .colon :: ts) := by
  have hcolon : Spells (String.ofList [':']) [.colon] := spells_mark rfl rfl
  exact ((spells_encode name).append hcolon).append h

mutual

/-- The compact layout of a value spells its tokens. -/
theorem spells_compact : ∀ value : Json, Textual value → Spells (compact value) (tokens value)
  | scalar value, h => by
    rw [Textual] at h
    obtain ⟨content, rfl⟩ := h
    rw [compact, tokens]
    exact spells_encode content
  | array items, h => by
    rw [Textual] at h
    rw [compact, tokens]
    exact (spells_compactItems items h).inArray
  | object members, h => by
    rw [Textual] at h
    rw [compact, tokens]
    exact (spells_compactMembers members h).inObject

theorem spells_compactItems : ∀ items : List Json, TextualItems items →
    Spells (compactItems items) (itemTokens items)
  | [], _ => by
    rw [compactItems, itemTokens]
    exact spells_empty
  | [item], h => by
    rw [TextualItems] at h
    rw [compactItems, itemTokens]
    exact spells_compact item h.1
  | item :: next :: rest, h => by
    rw [TextualItems] at h
    rw [compactItems, itemTokens]
    exact (spells_compact item h.1).followed (spells_compactItems (next :: rest) h.2)

theorem spells_compactMembers : ∀ members : List (String × Json), TextualMembers members →
    Spells (compactMembers members) (memberTokens members)
  | [], _ => by
    rw [compactMembers, memberTokens]
    exact spells_empty
  | [(name, value)], h => by
    rw [TextualMembers] at h
    rw [compactMembers, memberTokens]
    exact (spells_compact value h.1).compactNamed name
  | (name, value) :: next :: rest, h => by
    rw [TextualMembers] at h
    have hmember := (spells_compact value h.1).compactNamed name
    rw [compactMembers, memberTokens]
    exact hmember.followed (spells_compactMembers (next :: rest) h.2)

end

/-! ## Whole documents -/

/-- The tokens of a document that spells a value. -/
theorem scan_of_spells {text : String} {ts : List Token} (h : Spells text ts) :
    Token.scan text.toList = some ts := by
  have hscan := h []
  rw [List.append_nil, Token.scan, Option.map_some, List.append_nil] at hscan
  exact hscan

/-! ## Lines -/

/-- No character of a text is a control character. -/
def isPrintable (text : List Char) : Bool :=
  text.all fun c => 0x20 ≤ c.toNat

/-- A text on one line: it has no control characters. -/
def OneLine (text : String) : Prop :=
  isPrintable text.toList = true

instance (text : String) : Decidable (OneLine text) :=
  inferInstanceAs (Decidable (isPrintable text.toList = true))

theorem OneLine.newline_not_mem {text : String} (h : OneLine text) : '\n' ∉ text.toList :=
  fun hmem => absurd (List.all_eq_true.1 h _ hmem) (by decide)

theorem isPrintable_append (text text' : List Char) :
    isPrintable (text ++ text') = (isPrintable text && isPrintable text') :=
  List.all_append

theorem OneLine.append {text text' : String} (h : OneLine text) (h' : OneLine text') :
    OneLine (text ++ text') := by
  rw [OneLine, String.toList_append, isPrintable_append, h, h', Bool.and_self]

/-- What a character is written as between quotes has no control characters. -/
theorem isPrintable_escape (c : Char) : isPrintable (Quoted.escape c) = true := by
  have hdigit : ∀ n < 16, 0x20 ≤ (Number.hexDigit n).toNat := by decide
  rw [Quoted.escape.eq_def]
  split
  next => decide
  next => decide
  next => decide
  next => decide
  next => decide
  next => decide
  next => decide
  next =>
    split
    next hcontrol =>
      have hhigh := hdigit (c.toNat / 16) (by omega)
      have hlow := hdigit (c.toNat % 16) (by omega)
      simp [isPrintable, hhigh, hlow]
    next hprintable => simp [isPrintable, Nat.le_of_not_lt hprintable]

theorem oneLine_encode (content : String) : OneLine (Quoted.encode content) := by
  have hcontent : isPrintable (content.toList.flatMap Quoted.escape) = true := by
    rw [isPrintable, List.all_flatMap, List.all_eq_true]
    exact fun c _ => isPrintable_escape c
  rw [OneLine, Quoted.encode, String.toList_ofList, ← List.singleton_append, isPrintable_append,
    isPrintable_append, hcontent]
  rfl

mutual

/-- The compact layout of a value is one line. -/
theorem oneLine_compact : ∀ value : Json, Textual value → OneLine (compact value)
  | scalar value, h => by
    rw [Textual] at h
    obtain ⟨content, rfl⟩ := h
    rw [compact]
    exact oneLine_encode content
  | array items, h => by
    rw [Textual] at h
    have hopen : OneLine "[" := by decide
    have hclose : OneLine "]" := by decide
    rw [compact]
    exact (hopen.append (oneLine_compactItems items h)).append hclose
  | object members, h => by
    rw [Textual] at h
    have hopen : OneLine "\x7b" := by decide
    have hclose : OneLine "\x7d" := by decide
    rw [compact]
    exact (hopen.append (oneLine_compactMembers members h)).append hclose

theorem oneLine_compactItems : ∀ items : List Json, TextualItems items → OneLine (compactItems items)
  | [], _ => by
    rw [compactItems]
    decide
  | [item], h => by
    rw [TextualItems] at h
    rw [compactItems]
    exact oneLine_compact item h.1
  | item :: next :: rest, h => by
    rw [TextualItems] at h
    have hcomma : OneLine "," := by decide
    rw [compactItems]
    exact ((oneLine_compact item h.1).append hcomma).append (oneLine_compactItems (next :: rest) h.2)

theorem oneLine_compactMembers : ∀ members : List (String × Json), TextualMembers members →
    OneLine (compactMembers members)
  | [], _ => by
    rw [compactMembers]
    decide
  | [(name, value)], h => by
    rw [TextualMembers] at h
    have hcolon : OneLine ":" := by decide
    rw [compactMembers]
    exact ((oneLine_encode name).append hcolon).append (oneLine_compact value h.1)
  | (name, value) :: next :: rest, h => by
    rw [TextualMembers] at h
    have hcolon : OneLine ":" := by decide
    have hcomma : OneLine "," := by decide
    have hmember := ((oneLine_encode name).append hcolon).append (oneLine_compact value h.1)
    rw [compactMembers]
    exact (hmember.append hcomma).append (oneLine_compactMembers (next :: rest) h.2)

end

end VirtualShell.Json
