import VirtualShell.Json.Reader
import VirtualShell.Proofs.Entries
import VirtualShell.Proofs.Json.Layout

/-!
# Reading a value back

The reader takes the tokens of a value to that value, if the value is not nested too deeply and no object
in it repeats a name, and it refuses the tokens of a value that is nested too deeply
(`ofTokens?_tokens`). The statement behind it is about a value in the middle of a document:
`readOn_tokens` says that its tokens take the reader from waiting for a value to having accepted it,
provided that the arrays and objects still open leave room for it. So a text that spells the tokens of a
value is read as that value (`parse?_of_spells`), the layouts that are printed among them.

In the other direction, no object in a document that was read repeats a name (`distinct_of_parse?`).
-/

namespace VirtualShell.Json

/-! ## Nesting -/

mutual

/-- How many arrays and objects are open at a time while a value is read. -/
def nesting : Json → Nat
  | scalar _ => 0
  | array items => 1 + nestingOfItems items
  | object members => 1 + nestingOfMembers members

/-- The deepest nesting among items. -/
def nestingOfItems : List Json → Nat
  | [] => 0
  | item :: rest => max (nesting item) (nestingOfItems rest)

/-- The deepest nesting among members. -/
def nestingOfMembers : List (String × Json) → Nat
  | [] => 0
  | (_, value) :: rest => max (nesting value) (nestingOfMembers rest)

end

/-! ## Names -/

mutual

/-- No object repeats a name. -/
def Distinct : Json → Prop
  | scalar _ => True
  | array items => DistinctItems items
  | object members => (Entries.names members).Nodup ∧ DistinctMembers members

/-- No object in items repeats a name. -/
def DistinctItems : List Json → Prop
  | [] => True
  | item :: rest => Distinct item ∧ DistinctItems rest

/-- No object in members repeats a name. -/
def DistinctMembers : List (String × Json) → Prop
  | [] => True
  | (_, value) :: rest => Distinct value ∧ DistinctMembers rest

end

/-! ## From tokens to the value -/

open Reading

/-- Reads further tokens. -/
def readOn (reading : Reading) (tokens : List Token) : Option Reading :=
  tokens.foldlM Reading.step reading

theorem readOn_cons {reading next : Reading} {token : Token} (h : reading.step token = some next)
    (rest : List Token) : readOn reading (token :: rest) = readOn next rest := by
  rw [readOn, List.foldlM_cons, h]
  rfl

/-- Where an array has just been opened, a value is taken like anywhere else. -/
theorem readOn_firstItem (value : Json) (frames : List Frame) (rest : List Token) :
    readOn ⟨frames, .firstItem⟩ (tokens value ++ rest) =
      readOn ⟨frames, .value⟩ (tokens value ++ rest) := by
  have hstep : ∀ token, token ≠ .arrayClose →
      Reading.step ⟨frames, .firstItem⟩ token = Reading.step ⟨frames, .value⟩ token := by
    intro token hne
    cases frames with
    | nil => cases token <;> rfl
    | cons frame frames => cases frame <;> cases token <;> first | rfl | exact absurd rfl hne
  cases value with
  | scalar value =>
    rw [tokens, List.singleton_append, readOn, readOn, List.foldlM_cons, List.foldlM_cons,
      hstep _ (by simp)]
  | array items =>
    rw [tokens, List.cons_append, readOn, readOn, List.foldlM_cons, List.foldlM_cons,
      hstep _ (by simp)]
  | object members =>
    rw [tokens, List.cons_append, readOn, readOn, List.foldlM_cons, List.foldlM_cons,
      hstep _ (by simp)]

/-- The tokens of items begin with those of the first one. -/
private theorem exists_itemTokens_eq (item : Json) (more : List Json) :
    ∃ behind, itemTokens (item :: more) = tokens item ++ behind := by
  cases more with
  | nil => exact ⟨[], by rw [itemTokens, List.append_nil]⟩
  | cons next more => exact ⟨_, by rw [itemTokens]⟩

/-- An array is opened if there is room. -/
theorem readOn_arrayOpen (frames : List Frame) (rest : List Token) :
    readOn ⟨frames, .value⟩ (.arrayOpen :: rest) =
      if frames.length < deepest then readOn ⟨.array [] :: frames, .firstItem⟩ rest else none := by
  have hstep : Reading.step ⟨frames, .value⟩ .arrayOpen = enter (.array []) .firstItem frames := rfl
  rw [readOn, List.foldlM_cons, hstep, enter]
  split <;> rfl

/-- An object is opened if there is room. -/
theorem readOn_objectOpen (frames : List Frame) (rest : List Token) :
    readOn ⟨frames, .value⟩ (.objectOpen :: rest) =
      if frames.length < deepest then readOn ⟨.object [] "" :: frames, .firstName⟩ rest
      else none := by
  have hstep : Reading.step ⟨frames, .value⟩ .objectOpen = enter (.object [] "") .firstName frames :=
    rfl
  rw [readOn, List.foldlM_cons, hstep, enter]
  split <;> rfl

/-- A name and its colon, at the beginning of an object and after a comma. -/
theorem readOn_name {expecting : Expecting} (h : expecting = .firstName ∨ expecting = .name)
    (members : List (String × Json)) (last name : String) (frames : List Frame)
    (rest : List Token) :
    readOn ⟨.object members last :: frames, expecting⟩ (.scalar (.text name) :: .colon :: rest) =
      readOn ⟨.object members name :: frames, .value⟩ rest := by
  rcases h with rfl | rfl
  · rw [readOn_cons rfl, readOn_cons rfl]
  · rw [readOn_cons rfl, readOn_cons rfl]

private theorem not_mem_names_of_nodup {before more : List (String × Json)} {name : String}
    {value : Json} (h : (Entries.names (before ++ (name, value) :: more)).Nodup) :
    name ∉ Entries.names before := by
  rw [Entries.names, List.map_append, List.nodup_append] at h
  exact fun hmem => h.2.2 name hmem name List.mem_cons_self rfl

/-- Two conditions for one result. -/
private theorem if_and {α : Type} {a b c : Prop} [Decidable a] [Decidable b] [Decidable c]
    (h : c ↔ a ∧ b) (result : Option α) :
    (if a then if b then result else none else none) = if c then result else none := by
  by_cases ha : a
  · by_cases hb : b
    · rw [if_pos ha, if_pos hb, if_pos (h.2 ⟨ha, hb⟩)]
    · rw [if_pos ha, if_neg hb, if_neg fun hc => hb (h.1 hc).2]
  · rw [if_neg ha, if_neg fun hc => ha (h.1 hc).1]

mutual

/-- The tokens of a value, wherever a value may stand, are read as that value if there is room. -/
theorem readOn_tokens : ∀ (value : Json) (frames : List Frame) (rest : List Token),
    Distinct value → frames.length ≤ deepest →
      readOn ⟨frames, .value⟩ (tokens value ++ rest) =
        if frames.length + nesting value ≤ deepest then readOn (accept value frames) rest
        else none
  | scalar value, frames, rest, _, hroom => by
    rw [tokens, nesting, Nat.add_zero, if_pos hroom]
    exact readOn_cons rfl rest
  | array [], frames, rest, _, _ => by
    rw [tokens, itemTokens, nesting, nestingOfItems]
    exact readOn_arrayOpen frames (.arrayClose :: rest)
  | array (item :: more), frames, rest, hdistinct, _ => by
    rw [Distinct] at hdistinct
    rw [tokens, nesting, List.cons_append, List.append_assoc, List.singleton_append,
      readOn_arrayOpen]
    by_cases hroom : frames.length < deepest
    · obtain ⟨behind, hbehind⟩ := exists_itemTokens_eq item more
      rw [if_pos hroom, hbehind, List.append_assoc, readOn_firstItem, ← List.append_assoc, ← hbehind]
      exact readOn_items (item :: more) [] frames rest hdistinct (List.cons_ne_nil _ _) hroom
    · rw [if_neg hroom, if_neg (by omega)]
  | object [], frames, rest, _, _ => by
    rw [tokens, memberTokens, nesting, nestingOfMembers]
    exact readOn_objectOpen frames (.objectClose :: rest)
  | object (member :: more), frames, rest, hdistinct, _ => by
    rw [Distinct] at hdistinct
    rw [tokens, nesting, List.cons_append, List.append_assoc, List.singleton_append,
      readOn_objectOpen]
    by_cases hroom : frames.length < deepest
    · rw [if_pos hroom]
      exact readOn_members (member :: more) [] "" .firstName frames rest hdistinct.2 hdistinct.1
        (List.cons_ne_nil _ _) hroom (.inl rfl)
    · rw [if_neg hroom, if_neg (by omega)]

/-- The tokens of further items of an array, and its end. -/
theorem readOn_items : ∀ (items before : List Json) (frames : List Frame) (rest : List Token),
    DistinctItems items → items ≠ [] → frames.length < deepest →
      readOn ⟨.array before :: frames, .value⟩ (itemTokens items ++ .arrayClose :: rest) =
        if frames.length + (1 + nestingOfItems items) ≤ deepest then
          readOn (accept (array (before.reverse ++ items)) frames) rest
        else none
  | [], before, frames, rest, _, hne, _ => absurd rfl hne
  | [item], before, frames, rest, hdistinct, _, hroom => by
    rw [DistinctItems] at hdistinct
    rw [itemTokens, readOn_tokens item (.array before :: frames) _ hdistinct.1 hroom,
      List.length_cons, nestingOfItems, nestingOfItems, Nat.max_zero, Nat.add_assoc]
    congr 1
    rw [accept, readOn_cons rfl, List.reverse_cons]
  | item :: next :: more, before, frames, rest, hdistinct, _, hroom => by
    rw [DistinctItems] at hdistinct
    have hmore := readOn_items (next :: more) (item :: before) frames rest hdistinct.2
      (List.cons_ne_nil _ _) hroom
    have hnesting : nestingOfItems (item :: next :: more) =
        max (nesting item) (nestingOfItems (next :: more)) := by rw [nestingOfItems]
    rw [itemTokens, List.append_assoc,
      readOn_tokens item (.array before :: frames) _ hdistinct.1 hroom, accept, List.cons_append,
      readOn_cons rfl, hmore, hnesting, List.reverse_cons, List.append_assoc,
      List.singleton_append]
    refine if_and ?_ _
    rw [List.length_cons]
    omega

/-- The tokens of further members of an object, and its end. -/
theorem readOn_members : ∀ (members before : List (String × Json)) (last : String)
    (expecting : Expecting) (frames : List Frame) (rest : List Token),
    DistinctMembers members → (Entries.names (before ++ members)).Nodup → members ≠ [] →
      frames.length < deepest → expecting = .firstName ∨ expecting = .name →
        readOn ⟨.object before last :: frames, expecting⟩
            (memberTokens members ++ .objectClose :: rest) =
          if frames.length + (1 + nestingOfMembers members) ≤ deepest then
            readOn (accept (object (before ++ members)) frames) rest
          else none
  | [], before, last, expecting, frames, rest, _, _, hne, _, _ => absurd rfl hne
  | [(name, value)], before, last, expecting, frames, rest, hdistinct, hnodup, _, hroom, hname => by
    rw [DistinctMembers] at hdistinct
    rw [memberTokens, List.cons_append, List.cons_append, readOn_name hname,
      readOn_tokens value (.object before name :: frames) _ hdistinct.1 hroom, List.length_cons,
      nestingOfMembers, nestingOfMembers, Nat.max_zero, Nat.add_assoc]
    congr 1
    rw [accept, Entries.put_eq_concat (not_mem_names_of_nodup hnodup), readOn_cons rfl]
  | (name, value) :: next :: more, before, last, expecting, frames, rest, hdistinct, hnodup, _,
      hroom, hname => by
    rw [DistinctMembers] at hdistinct
    have hnodup' := hnodup
    rw [List.append_cons] at hnodup'
    have hmore := readOn_members (next :: more) (before ++ [(name, value)]) name .name frames rest
      hdistinct.2 hnodup' (List.cons_ne_nil _ _) hroom (.inr rfl)
    have hnesting : nestingOfMembers ((name, value) :: next :: more) =
        max (nesting value) (nestingOfMembers (next :: more)) := by rw [nestingOfMembers]
    rw [memberTokens, List.cons_append, List.cons_append, readOn_name hname, List.append_assoc,
      readOn_tokens value (.object before name :: frames) _ hdistinct.1 hroom, accept,
      Entries.put_eq_concat (not_mem_names_of_nodup hnodup), List.cons_append, readOn_cons rfl,
      hmore, hnesting, List.append_assoc, List.singleton_append]
    refine if_and ?_ _
    rw [List.length_cons]
    omega

end

/-- Reading the tokens of a whole document. -/
theorem ofTokens?_tokens {value : Json} (h : Distinct value) :
    ofTokens? (tokens value) = if nesting value ≤ deepest then some value else none := by
  have hread := readOn_tokens value [] [] h (Nat.zero_le _)
  rw [List.append_nil, List.length_nil, Nat.zero_add] at hread
  rw [ofTokens?, Reading.start, ← readOn, hread]
  split <;> rfl

/-- A document is read as the value whose tokens it spells, unless that is nested too deeply. -/
theorem parse?_of_spells {text : String} {value : Json} (h : Spells text (tokens value))
    (hdistinct : Distinct value) :
    parse? text = if nesting value ≤ deepest then some value else none := by
  rw [parse?, scan_of_spells h, Option.bind_some, ofTokens?_tokens hdistinct]

/-- A printed document is read back as it was, unless it is nested too deeply. -/
theorem parse?_compact {value : Json} (htextual : Textual value) (hdistinct : Distinct value) :
    parse? value.compact = if nesting value ≤ deepest then some value else none :=
  parse?_of_spells (spells_compact value htextual) hdistinct

/-! ## From the document to distinct names -/

theorem distinctItems_iff {items : List Json} :
    DistinctItems items ↔ ∀ item ∈ items, Distinct item := by
  induction items with
  | nil => simp [DistinctItems]
  | cons item rest ih => rw [DistinctItems, ih, List.forall_mem_cons]

theorem distinctMembers_iff {members : List (String × Json)} :
    DistinctMembers members ↔ ∀ member ∈ members, Distinct member.2 := by
  induction members with
  | nil => simp [DistinctMembers]
  | cons member rest ih => rw [DistinctMembers, ih, List.forall_mem_cons]

/-- What an open array or object holds so far repeats no name. -/
def Frame.Distinct : Frame → Prop
  | array items => ∀ item ∈ items, item.Distinct
  | object members _ => (Json.object members).Distinct

/-- Nothing that was read so far repeats a name. -/
structure Reading.Distinct (reading : Reading) : Prop where
  frames : ∀ frame ∈ reading.frames, frame.Distinct
  result : ∀ value, reading.result? = some value → value.Distinct

namespace Reading

variable {frames : List Frame}

theorem accept_distinct {value : Json} (hvalue : value.Distinct)
    (hframes : ∀ frame ∈ frames, frame.Distinct) : (accept value frames).Distinct := by
  cases frames with
  | nil =>
    refine ⟨List.forall_mem_nil _, fun result h => ?_⟩
    cases h
    exact hvalue
  | cons frame rest =>
    obtain ⟨hframe, hrest⟩ := List.forall_mem_cons.1 hframes
    cases frame with
    | array items =>
      refine ⟨List.forall_mem_cons.2 ⟨?_, hrest⟩, fun _ h => by cases h⟩
      exact List.forall_mem_cons.2 ⟨hvalue, hframe⟩
    | object members name =>
      refine ⟨List.forall_mem_cons.2 ⟨?_, hrest⟩, fun _ h => by cases h⟩
      rw [Frame.Distinct, Json.Distinct, distinctMembers_iff] at hframe ⊢
      refine ⟨Entries.nodup_names_put hframe.1 name value, fun member hmember => ?_⟩
      rcases Entries.mem_of_mem_put hmember with rfl | hold
      · exact hvalue
      · exact hframe.2 member hold

theorem begin_distinct {token : Token} {next : Reading} (h : begin frames token = some next)
    (hframes : ∀ frame ∈ frames, frame.Distinct) : next.Distinct := by
  rw [begin.eq_def] at h
  split at h
  next =>
    cases h
    exact accept_distinct (by rw [Json.Distinct]; trivial) hframes
  next =>
    rw [enter] at h
    split at h
    next =>
      cases h
      exact ⟨List.forall_mem_cons.2 ⟨List.forall_mem_nil _, hframes⟩,
        fun _ h => by cases h⟩
    next => cases h
  next =>
    rw [enter] at h
    split at h
    next =>
      cases h
      refine ⟨List.forall_mem_cons.2 ⟨?_, hframes⟩, fun _ h => by cases h⟩
      rw [Frame.Distinct, Json.Distinct, DistinctMembers]
      exact ⟨List.Pairwise.nil, trivial⟩
    next => cases h
  next => cases h

/-- An array that ends is a value without repeated names. -/
private theorem close_array_distinct {items : List Json} {reading : Reading}
    (hreading : reading.Distinct) (hopen : reading.frames = .array items :: frames) :
    (accept (.array items.reverse) frames).Distinct := by
  have hframes := hreading.frames
  rw [hopen] at hframes
  obtain ⟨hframe, hrest⟩ := List.forall_mem_cons.1 hframes
  refine accept_distinct ?_ hrest
  rw [Json.Distinct, distinctItems_iff]
  exact fun item hitem => hframe item (List.mem_reverse.1 hitem)

private theorem close_object_distinct {members : List (String × Json)} {name : String}
    {reading : Reading} (hreading : reading.Distinct)
    (hopen : reading.frames = .object members name :: frames) :
    (accept (.object members) frames).Distinct := by
  have hframes := hreading.frames
  rw [hopen] at hframes
  obtain ⟨hframe, hrest⟩ := List.forall_mem_cons.1 hframes
  exact accept_distinct hframe hrest

/-- Waiting for something else changes nothing that was read, and neither does another name. -/
private theorem wait_distinct {frame frame' : Frame} {expecting : Expecting} {reading : Reading}
    (hreading : reading.Distinct) (hopen : reading.frames = frame :: frames)
    (hframe : frame.Distinct → frame'.Distinct)
    (hwait : Reading.result? ⟨frame' :: frames, expecting⟩ = none) :
    Reading.Distinct ⟨frame' :: frames, expecting⟩ := by
  have hframes := hreading.frames
  rw [hopen] at hframes
  obtain ⟨hfirst, hrest⟩ := List.forall_mem_cons.1 hframes
  refine ⟨List.forall_mem_cons.2 ⟨hframe hfirst, hrest⟩, fun value hvalue => ?_⟩
  rw [hwait] at hvalue
  cases hvalue

/-- A token repeats no name. -/
theorem step_distinct {reading next : Reading} {token : Token} (h : reading.step token = some next)
    (hreading : reading.Distinct) : next.Distinct := by
  rw [step.eq_def] at h
  split at h
  next => exact begin_distinct h hreading.frames
  next _ hopen =>
    cases h
    exact close_array_distinct hreading hopen
  next => exact begin_distinct h hreading.frames
  next _ hopen =>
    cases h
    exact close_object_distinct hreading hopen
  next _ hopen =>
    cases h
    exact wait_distinct hreading hopen id rfl
  next _ hopen =>
    cases h
    exact wait_distinct hreading hopen id rfl
  next =>
    cases h
    exact ⟨hreading.frames, fun _ hvalue => by cases hvalue⟩
  next _ hopen =>
    cases h
    exact wait_distinct hreading hopen id rfl
  next _ hopen =>
    cases h
    exact close_array_distinct hreading hopen
  next _ hopen =>
    cases h
    exact wait_distinct hreading hopen id rfl
  next _ hopen =>
    cases h
    exact close_object_distinct hreading hopen
  next => cases h

theorem readOn_distinct {tokens : List Token} {reading last : Reading}
    (h : readOn reading tokens = some last) (hreading : reading.Distinct) : last.Distinct := by
  induction tokens generalizing reading with
  | nil =>
    cases h
    exact hreading
  | cons token rest ih =>
    rw [readOn, List.foldlM_cons] at h
    obtain ⟨next, hstep, hrest⟩ := Option.bind_eq_some_iff.1 h
    exact ih hrest (step_distinct hstep hreading)

end Reading

/-- No object in a document that was read repeats a name. -/
theorem distinct_of_parse? {document : String} {value : Json} (h : parse? document = some value) :
    value.Distinct := by
  obtain ⟨tokens, -, h⟩ := Option.bind_eq_some_iff.1 h
  obtain ⟨last, hread, hresult⟩ := Option.bind_eq_some_iff.1 h
  have hstart : Reading.start.Distinct :=
    ⟨List.forall_mem_nil _, fun _ h => by cases h⟩
  exact (Reading.readOn_distinct hread hstart).result value hresult

end VirtualShell.Json
