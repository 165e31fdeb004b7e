import VirtualShell.Entries
import VirtualShell.Json.Token

/-!
# Reading JSON

The reader takes one token at a time and remembers the arrays and objects that are still open, the
innermost first. What may come next follows from what came before, so reading ends with the last
token. A document is exactly one value. Not more than `deepest` arrays and objects may be open at a
time, and of several members of one name the last one counts.
-/

namespace VirtualShell.Json

/-- An array or object that is still open, with what it holds so far; the items of an array stand in
reverse. An object knows the name whose value is awaited. -/
inductive Frame
  | array (items : List Json)
  | object (members : List (String × Json)) (name : String)

/-- What the next token may be. -/
inductive Expecting
  /-- A value. -/
  | value
  /-- A value, or the end of the array that has just been opened. -/
  | firstItem
  /-- A name, or the end of the object that has just been opened. -/
  | firstName
  /-- The name of a further member. -/
  | name
  /-- The colon after a name. -/
  | colon
  /-- A comma, or the end of the innermost array or object. -/
  | separator
  /-- Nothing: the document is complete. -/
  | nothing (result : Json)

/-- Where the reader stands: the open arrays and objects, and what it waits for. -/
structure Reading where
  frames : List Frame
  expecting : Expecting

namespace Reading

/-- The greatest number of arrays and objects that may be open at a time. -/
def deepest : Nat := 127

/-- Takes a complete value into the innermost array or object, or as the whole document. -/
def accept (value : Json) : List Frame → Reading
  | [] => ⟨[], .nothing value⟩
  | .array items :: frames => ⟨.array (value :: items) :: frames, .separator⟩
  | .object members name :: frames =>
    ⟨.object (Entries.put name value members) name :: frames, .separator⟩

/-- Opens an array or object inside those that are open. -/
def enter (frame : Frame) (expecting : Expecting) (frames : List Frame) : Option Reading :=
  if frames.length < deepest then some ⟨frame :: frames, expecting⟩ else none

/-- Takes a token where a value begins. -/
def begin (frames : List Frame) : Token → Option Reading
  | .scalar value => some (accept (.scalar value) frames)
  | .arrayOpen => enter (.array []) .firstItem frames
  | .objectOpen => enter (.object [] "") .firstName frames
  | _ => none

/-- Takes one token. -/
def step (reading : Reading) (token : Token) : Option Reading :=
  match reading.expecting, reading.frames, token with
  | .value, frames, token => begin frames token
  | .firstItem, .array items :: frames, .arrayClose => some (accept (.array items.reverse) frames)
  | .firstItem, frames, token => begin frames token
  | .firstName, .object members _ :: frames, .objectClose =>
    some (accept (.object members) frames)
  | .firstName, .object members _ :: frames, .scalar (.text name) =>
    some ⟨.object members name :: frames, .colon⟩
  | .name, .object members _ :: frames, .scalar (.text name) =>
    some ⟨.object members name :: frames, .colon⟩
  | .colon, frames, .colon => some ⟨frames, .value⟩
  | .separator, .array items :: frames, .comma => some ⟨.array items :: frames, .value⟩
  | .separator, .array items :: frames, .arrayClose => some (accept (.array items.reverse) frames)
  | .separator, .object members name :: frames, .comma =>
    some ⟨.object members name :: frames, .name⟩
  | .separator, .object members _ :: frames, .objectClose =>
    some (accept (.object members) frames)
  | _, _, _ => none

/-- The value of a document that has been read to its end. -/
def result? (reading : Reading) : Option Json :=
  match reading.expecting with
  | .nothing value => some value
  | _ => none

/-- Before the first token. -/
def start : Reading := ⟨[], .value⟩

end Reading

/-- The value that a sequence of tokens is. -/
def ofTokens? (tokens : List Token) : Option Json :=
  (tokens.foldlM Reading.step Reading.start).bind Reading.result?

/-- The value that a document holds. -/
def parse? (document : String) : Option Json :=
  (Token.scan document.toList).bind ofTokens?

end VirtualShell.Json
