import VirtualShell.Text.CaseTable
import VirtualShell.Text.Ranges

/-!
# Upper and lower case

The full case mappings of Unicode on whole texts, in no particular language. Two rules go beyond a
table of single characters. A capital sigma becomes the final sigma at the end of a word: when a
cased letter stands before it and none after it, characters that case ignores (combining marks,
apostrophes and the like) being skipped on both sides. And some characters have a mapping of several
characters, such as the sharp s, whose upper case form is two letters.
-/

namespace VirtualShell.Text

example : Ascending casedRanges ∧ Ascending caseIgnorableRanges := by decide +kernel

/-- The code point that a run, if any, maps `n` to. The runs are in increasing order. -/
def mapByRuns (n : Nat) : List CaseRun → Option Nat
  | [] => none
  | run :: rest =>
    if n < run.first then none
    else if n ≤ run.last ∧ (n - run.first) % run.step = 0 then some (run.target + (n - run.first))
    else mapByRuns n rest

/-- The upper case form of one character. -/
def upperForm (c : Char) : List Char :=
  match upperExpansions.find? (·.1 == c.toNat) with
  | some (_, form) => form.map Char.ofNat
  | none =>
    match mapByRuns c.toNat upperRuns with
    | some n => [Char.ofNat n]
    | none => [c]

/-- The text in upper case. -/
def uppercase (s : String) : String :=
  String.ofList (s.toList.flatMap upperForm)

/-- The lower case form of a character, its surroundings aside. The capital I with a dot keeps its
dot as a combining mark. -/
def lowerForm (c : Char) : List Char :=
  if c.toNat = 0x130 then ['i', Char.ofNat 0x307]
  else
    match mapByRuns c.toNat lowerRuns with
    | some n => [Char.ofNat n]
    | none => [c]

/-- Whether the first character that case does not ignore is a cased one. -/
def meetsCased : List Char → Bool
  | [] => false
  | c :: rest =>
    if inRanges c.toNat caseIgnorableRanges then meetsCased rest
    else inRanges c.toNat casedRanges

/-- The lower case form of a text, given the characters before it, nearest first. -/
def lowerFrom (before : List Char) : List Char → List Char
  | [] => []
  | c :: rest =>
    let form :=
      if c = 'Σ' then [if meetsCased before && !meetsCased rest then 'ς' else 'σ']
      else lowerForm c
    form ++ lowerFrom (c :: before) rest

/-- The text in lower case. -/
def lowercase (s : String) : String :=
  String.ofList (lowerFrom [] s.toList)

end VirtualShell.Text
