/-!
# Named entries

Lists of pairs of a name and a value, read with `List.lookup`. There are two ways to write one.
`put` keeps names in the order in which they first arrived: variables, the members of a document and
the commands of a registry. `place` keeps names in increasing order: the entries of a directory.
Both overwrite the value of a name that is there.
-/

namespace VirtualShell.Entries

variable {β : Type}

/-- The names, in order. -/
def names (entries : List (String × β)) : List String :=
  entries.map (·.1)

/-- Gives a name a value: in its place if the name is there, at the end otherwise. -/
def put (name : String) (value : β) : List (String × β) → List (String × β)
  | [] => [(name, value)]
  | (other, old) :: rest =>
    if other = name then (name, value) :: rest else (other, old) :: put name value rest

/-- Gives a name a value in a list of increasing names. -/
def place (name : String) (value : β) : List (String × β) → List (String × β)
  | [] => [(name, value)]
  | (other, old) :: rest =>
    if name = other then (name, value) :: rest
    else if name < other then (name, value) :: (other, old) :: rest
    else (other, old) :: place name value rest

/-- Takes out what a name stands for. -/
def erase (name : String) (entries : List (String × β)) : List (String × β) :=
  entries.filter (·.1 != name)

/-- The entries of a list in increasing order of names, the last value of a name winning. -/
def sorted (entries : List (String × β)) : List (String × β) :=
  entries.foldl (fun placed (name, value) => place name value placed) []

/-- Looking a name up, one entry at a time. -/
theorem lookup_cons_eq (name : String) (entry : String × β) (rest : List (String × β)) :
    (entry :: rest).lookup name = if name = entry.1 then some entry.2 else rest.lookup name := by
  obtain ⟨other, value⟩ := entry
  by_cases h : name = other
  · rw [if_pos h, h, List.lookup_cons_self]
  · rw [if_neg h, List.lookup_cons, beq_false_of_ne h]

@[simp]
theorem lookup_put_self (name : String) (value : β) (entries : List (String × β)) :
    (put name value entries).lookup name = some value := by
  induction entries with
  | nil => simp [put]
  | cons entry rest ih =>
    by_cases h : entry.1 = name
    · simp [put, h]
    · simp [put, h, lookup_cons_eq, ih, Ne.symm h]

theorem lookup_put_of_ne {name other : String} (h : other ≠ name) (value : β)
    (entries : List (String × β)) :
    (put name value entries).lookup other = entries.lookup other := by
  induction entries with
  | nil => simp [put, lookup_cons_eq, h]
  | cons entry rest ih =>
    by_cases heq : entry.1 = name
    · simp [put, heq, lookup_cons_eq, h]
    · simp [put, heq, lookup_cons_eq, ih]

@[simp]
theorem lookup_place_self (name : String) (value : β) (entries : List (String × β)) :
    (place name value entries).lookup name = some value := by
  induction entries with
  | nil => simp [place]
  | cons entry rest ih =>
    by_cases heq : name = entry.1
    · simp [place, heq]
    · by_cases hlt : name < entry.1
      · simp [place, heq, hlt]
      · simp [place, heq, hlt, lookup_cons_eq, ih]

theorem lookup_place_of_ne {name other : String} (h : other ≠ name) (value : β)
    (entries : List (String × β)) :
    (place name value entries).lookup other = entries.lookup other := by
  induction entries with
  | nil => simp [place, lookup_cons_eq, h]
  | cons entry rest ih =>
    by_cases heq : name = entry.1
    · simp [place, heq, lookup_cons_eq, heq ▸ h]
    · by_cases hlt : name < entry.1
      · simp [place, heq, hlt, lookup_cons_eq, h]
      · simp [place, heq, hlt, lookup_cons_eq, ih]

@[simp]
theorem lookup_erase_self (name : String) (entries : List (String × β)) :
    (erase name entries).lookup name = none := by
  rw [List.lookup_eq_none_iff]
  intro entry hentry
  have hne : (entry.1 != name) = true := (List.mem_filter.1 hentry).2
  exact bne_iff_ne.2 (Ne.symm (bne_iff_ne.1 hne))

theorem lookup_erase_of_ne {name other : String} (h : other ≠ name)
    (entries : List (String × β)) : (erase name entries).lookup other = entries.lookup other := by
  induction entries with
  | nil => rfl
  | cons entry rest ih =>
    rw [erase] at ih
    by_cases heq : entry.1 = name
    · rw [erase, List.filter_cons_of_neg (by simp [heq]), ih, lookup_cons_eq, if_neg (heq ▸ h)]
    · rw [erase, List.filter_cons_of_pos (by simp [heq]), lookup_cons_eq, lookup_cons_eq, ih]

end VirtualShell.Entries
