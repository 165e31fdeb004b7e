import VirtualShell.Proofs.Tree.Document

/-!
# Every way to write a tree as a document

A tree may be written on one line or over several ones, and a document may hold it as it is or as the only
member, named `/`, of an object (`Wraps`). All of these are read as the same tree
(`written_tree_is_read`). What decides is not the layout but what the text spells
(`Node.ofDocument_of_spells`): the kinds of document differ in their depth only, by the one object of the
wrapper.

No name in the tree can make a document look like one of the other kind. A tree that stands by itself is an
object with a `type`, which the wrapper never has, and the names of entries stand one object further in.
-/

namespace VirtualShell

namespace Json

/-- A text that only keeps marks apart. -/
def IsSpacing (text : String) : Prop :=
  text.toList.all Token.isSpace = true

instance (text : String) : Decidable (IsSpacing text) :=
  inferInstanceAs (Decidable (_ = true))

/-- A text as the value of the only member, named `/`, of an object, with spacing between the marks. -/
inductive Wraps (text : String) : String → Prop
  | intro {first second third fourth : String} (hfirst : IsSpacing first) (hsecond : IsSpacing second)
      (hthird : IsSpacing third) (hfourth : IsSpacing fourth) :
      Wraps text ("\x7b" ++ first ++ "\"/\"" ++ second ++ ":" ++ third ++ text ++ fourth ++ "\x7d")

/-- The object whose only member, named `/`, is a value. -/
def wrapper (value : Json) : Json :=
  .object [("/", value)]

/-- A text that is wrapped spells the wrapper of what it spelled. -/
theorem Wraps.spells {text document : String} {value : Json} (h : Wraps text document)
    (hspells : Spells text (tokens value)) : Spells document (tokens (wrapper value)) := by
  obtain ⟨hfirst, hsecond, hthird, hfourth⟩ := h
  have hopen : Spells (String.ofList ['{']) [.objectOpen] := spells_mark rfl rfl
  have hname : Spells "\"/\"" [.scalar (.text "/")] := spells_encode "/"
  have hcolon : Spells (String.ofList [':']) [.colon] := spells_mark rfl rfl
  have hclose : Spells (String.ofList ['}']) [.objectClose] := spells_mark rfl rfl
  have hhead := ((hopen.append (spells_space hfirst)).append hname).append (spells_space hsecond)
  have hvalue := ((hhead.append hcolon).append (spells_space hthird)).append hspells
  have hall := (hvalue.append (spells_space hfourth)).append hclose
  rwa [List.append_nil, List.append_nil] at hall

/-- The wrapper is one object deeper than the value. -/
theorem nesting_wrapper (value : Json) : (wrapper value).nesting = value.nesting + 1 := by
  simp only [wrapper, nesting, nestingOfMembers]
  omega

theorem textual_wrapper {value : Json} (h : value.Textual) : (wrapper value).Textual := by
  simpa [wrapper, Textual, TextualMembers] using h

theorem distinct_wrapper {value : Json} (h : value.Distinct) : (wrapper value).Distinct := by
  simpa [wrapper, Distinct, DistinctMembers, Entries.names] using h

end Json

namespace Node

variable {root : Node}

/-- The only member of a wrapper is found, since no wrapper has a `type`. -/
theorem rootValue_wrapper (value : Json) : rootValue (Json.wrapper value) = .ok value := by
  simp [Json.wrapper, rootValue, Entries.lookup_cons_eq]

/-- In whatever layout, a document that holds a tree as it is gives the tree. -/
theorem ofDocument_plain {text : String} (hordered : root.Ordered)
    (hdirectory : root.isDirectory = true) (hspells : Json.Spells text root.toJson.tokens)
    (hroom : root.toJson.nesting ≤ Json.Reading.deepest) : ofDocument text = .ok root := by
  rw [ofDocument_of_spells hordered hdirectory hspells (distinct_toJson root hordered)
    (rootValue_toJson root), if_pos hroom]

/-- In whatever layout, a document that holds a tree in a wrapper gives the tree, if there is room for one
object more. -/
theorem ofDocument_wrapped {text : String} (hordered : root.Ordered)
    (hdirectory : root.isDirectory = true)
    (hspells : Json.Spells text (Json.wrapper root.toJson).tokens)
    (hroom : root.toJson.nesting < Json.Reading.deepest) : ofDocument text = .ok root := by
  have hdistinct := Json.distinct_wrapper (distinct_toJson root hordered)
  rw [ofDocument_of_spells hordered hdirectory hspells hdistinct (rootValue_wrapper root.toJson),
    Json.nesting_wrapper, if_pos (Nat.succ_le_of_lt hroom)]

/-- **A written tree is read back.** The layout may be the compact or the indented one, and the tree may stand
by itself or be wrapped, in either layout and with any spacing. What is read is the same tree, with every mode
and also with its empty files and directories. The depth leaves room for the wrapper. -/
theorem written_tree_is_read (hordered : root.Ordered) (hdirectory : root.isDirectory = true)
    (hroom : root.toJson.nesting ≤ 126) :
    ofDocument root.toJson.compact = .ok root ∧
    ofDocument (Filesystem.document ⟨root⟩) = .ok root ∧
    (∀ document, Json.Wraps root.toJson.compact document → ofDocument document = .ok root) ∧
    (∀ document, Json.Wraps (Filesystem.document ⟨root⟩) document → ofDocument document = .ok root) ∧
    ofDocument (Json.wrapper root.toJson).compact = .ok root ∧
    ofDocument (Json.wrapper root.toJson).indented = .ok root := by
  have hbelow : root.toJson.nesting < Json.Reading.deepest := Nat.lt_succ_of_le hroom
  have htextual := textual_toJson root
  have htextual' := Json.textual_wrapper htextual
  have hcompact := Json.spells_compact root.toJson htextual
  have hindented := Json.spells_indentedAt root.toJson 0 htextual
  refine ⟨ofDocument_plain hordered hdirectory hcompact hbelow.le,
    ofDocument_plain hordered hdirectory hindented hbelow.le,
    fun document hwraps => ?_, fun document hwraps => ?_, ?_, ?_⟩
  · exact ofDocument_wrapped hordered hdirectory (hwraps.spells hcompact) hbelow
  · exact ofDocument_wrapped hordered hdirectory (hwraps.spells hindented) hbelow
  · exact ofDocument_wrapped hordered hdirectory (Json.spells_compact _ htextual') hbelow
  · exact ofDocument_wrapped hordered hdirectory (Json.spells_indentedAt _ 0 htextual') hbelow

/-- A tree as deep as it may be, with the names and texts that a document consists of. -/
def deepTree : Node :=
  directory
    [("/", file "" (some "0\"")),
      ("children", Nat.repeat (fun node => directory [("d", node)]) 61 emptyDirectory),
      ("type", file "\u0001\\\x7b\"type\":\x7d\n" none)]

/-- A tree whose document is nested as deeply as can be read is found again from each of its forms. Its names and
texts are those that a document gives a meaning to. -/
theorem written_tree_is_read_deepest :
    deepTree.toJson.nesting = 126 ∧ ofDocument deepTree.toJson.compact = .ok deepTree ∧
      ofDocument ("\x7b" ++ "\n" ++ "\"/\"" ++ "\t" ++ ":" ++ " " ++
        Filesystem.document ⟨deepTree⟩ ++ "\r\n" ++ "\x7d") = .ok deepTree := by
  have hordered : deepTree.Ordered := by decide +kernel
  have hdirectory : deepTree.isDirectory = true := rfl
  have hnesting : deepTree.toJson.nesting = 126 := by decide +kernel
  obtain ⟨hcompact, -, -, hwrapped, -⟩ := written_tree_is_read hordered hdirectory hnesting.le
  exact ⟨hnesting, hcompact, hwrapped _ (.intro rfl rfl rfl rfl)⟩

end Node

end VirtualShell
