import VirtualShell.Proofs.Entries

/-!
# Changes of what names stand for

`adjust` changes what a name stands for and leaves other names alone; a name that stands for nothing still
does. `supply` changes it too, but gives a name that stands for nothing the change of a fresh value. An edit
further down in a tree is a change of this kind for each name on the way.

Changes of two names can change places. Changes of one name can if their functions can.
-/

namespace VirtualShell.Entries

variable {β : Type} {name other : String} {value fresh : β} {f g : β → β} {entries : List (String × β)}

/-- Changes what a name stands for, if it stands for something. -/
def adjust (name : String) (f : β → β) : List (String × β) → List (String × β)
  | [] => []
  | (other, value) :: rest =>
    if other = name then (other, f value) :: rest else (other, value) :: adjust name f rest

theorem adjust_of_lookup (h : entries.lookup name = some value) (f : β → β) :
    adjust name f entries = put name (f value) entries := by
  induction entries with
  | nil => cases h
  | cons entry rest ih =>
    rw [lookup_cons_eq] at h
    split at h
    next hname =>
      obtain rfl := Option.some.inj h
      rw [adjust, put, if_pos hname.symm, if_pos hname.symm, hname]
    next hname => rw [adjust, put, if_neg (Ne.symm hname), if_neg (Ne.symm hname), ih h]

/-- Changing a value to itself changes nothing. -/
theorem adjust_eq_self (h : ∀ value, entries.lookup name = some value → f value = value) :
    adjust name f entries = entries := by
  induction entries with
  | nil => rfl
  | cons entry rest ih =>
    rw [adjust]
    split
    next hname =>
      rw [h entry.2 (by rw [lookup_cons_eq, if_pos hname.symm])]
    next hname =>
      rw [ih]
      intro value hvalue
      apply h
      rw [lookup_cons_eq, if_neg (Ne.symm hname), hvalue]

/-- Two changes can change places, unless they are changes of the same value that cannot. -/
theorem adjust_comm (h : name = other → ∀ value, f (g value) = g (f value)) :
    adjust name f (adjust other g entries) = adjust other g (adjust name f entries) := by
  induction entries with
  | nil => rfl
  | cons entry rest ih =>
    by_cases hname : entry.1 = name <;> by_cases hother : entry.1 = other
    · simp only [adjust, if_pos hname, if_pos hother, h (hname.symm.trans hother)]
    · simp only [adjust, if_pos hname, if_neg hother]
    · simp only [adjust, if_neg hname, if_pos hother]
    · simp only [adjust, if_neg hname, if_neg hother, ih]

theorem adjust_adjust (h : ∀ value, f (f value) = f value) :
    adjust name f (adjust name f entries) = adjust name f entries := by
  induction entries with
  | nil => rfl
  | cons entry rest ih =>
    by_cases hname : entry.1 = name
    · simp only [adjust, if_pos hname, h]
    · simp only [adjust, if_neg hname, ih]

/-- Taking a name out and changing a value can change places. -/
theorem erase_adjust (name other : String) (f : β → β) (entries : List (String × β)) :
    erase name (adjust other f entries) = adjust other f (erase name entries) := by
  induction entries with
  | nil => rfl
  | cons entry rest ih =>
    obtain ⟨first, value⟩ := entry
    by_cases hname : first = name
    · subst hname
      rw [erase_cons_self, adjust]
      split
      next hother =>
        rw [erase_cons_self, adjust_eq_self]
        intro found hfound
        rw [← hother, lookup_erase_self] at hfound
        cases hfound
      next => rw [erase_cons_self, ih]
    · rw [erase_cons_of_ne hname, adjust, adjust]
      split
      next => rw [erase_cons_of_ne hname]
      next => rw [erase_cons_of_ne hname, ih]

theorem lookup_adjust_self (name : String) (f : β → β) (entries : List (String × β)) :
    (adjust name f entries).lookup name = (entries.lookup name).map f := by
  induction entries with
  | nil => rfl
  | cons entry rest ih =>
    by_cases hname : entry.1 = name
    · simp [adjust, hname, lookup_cons_eq]
    · simp [adjust, hname, lookup_cons_eq, Ne.symm hname, ih]

theorem lookup_adjust_of_ne (h : other ≠ name) (f : β → β) (entries : List (String × β)) :
    (adjust name f entries).lookup other = entries.lookup other := by
  induction entries with
  | nil => rfl
  | cons entry rest ih =>
    by_cases hname : entry.1 = name
    · simp [adjust, hname, lookup_cons_eq, h]
    · simp [adjust, hname, lookup_cons_eq, ih]

/-- Placing a name and changing another one can change places. -/
theorem place_adjust (h : name ≠ other) (value : β) (f : β → β) (entries : List (String × β)) :
    place name value (adjust other f entries) = adjust other f (place name value entries) := by
  induction entries with
  | nil => simp only [place, adjust, if_neg h]
  | cons entry rest ih =>
    obtain ⟨first, old⟩ := entry
    rcases lt_trichotomy name first with hbefore | rfl | hafter
    · rw [place_cons_of_lt hbefore, adjust, adjust, if_neg h, adjust]
      split
      next => rw [place_cons_of_lt hbefore]
      next => rw [place_cons_of_lt hbefore]
    · rw [place_cons_self, adjust, if_neg h, adjust, if_neg h, place_cons_self]
    · rw [place_cons_of_gt hafter, adjust, adjust]
      split
      next => rw [place_cons_of_gt hafter]
      next => rw [place_cons_of_gt hafter, ih]

/-- A value that was just placed is there to be changed. -/
theorem adjust_place_self (name : String) (f : β → β) (value : β) (entries : List (String × β)) :
    adjust name f (place name value entries) = place name (f value) entries := by
  induction entries with
  | nil => rw [place, adjust, if_pos rfl, place]
  | cons entry rest ih =>
    obtain ⟨first, old⟩ := entry
    rcases lt_trichotomy name first with hbefore | rfl | hafter
    · rw [place_cons_of_lt hbefore, adjust, if_pos rfl, place_cons_of_lt hbefore]
    · rw [place_cons_self, adjust, if_pos rfl, place_cons_self]
    · rw [place_cons_of_gt hafter, adjust, if_neg (ne_of_lt hafter), ih, place_cons_of_gt hafter]

/-! ## Supplying -/

/-- Changes what a name stands for; a name that stands for nothing is given the change of a fresh value. -/
def supply (name : String) (fresh : β) (f : β → β) (entries : List (String × β)) : List (String × β) :=
  if (entries.lookup name).isSome then adjust name f entries else place name (f fresh) entries

theorem supply_of_lookup (h : entries.lookup name = some value) (fresh : β) (f : β → β) :
    supply name fresh f entries = adjust name f entries := by
  rw [supply, h]
  rfl

theorem supply_of_free (h : entries.lookup name = none) (fresh : β) (f : β → β) :
    supply name fresh f entries = place name (f fresh) entries := by
  rw [supply, h]
  rfl

theorem lookup_supply_self (name : String) (fresh : β) (f : β → β) (entries : List (String × β)) :
    (supply name fresh f entries).lookup name = some (f ((entries.lookup name).getD fresh)) := by
  cases h : entries.lookup name with
  | none => rw [supply_of_free h, lookup_place_self, Option.getD_none]
  | some value => rw [supply_of_lookup h, lookup_adjust_self, h, Option.map_some, Option.getD_some]

theorem lookup_supply_of_ne (h : other ≠ name) (fresh : β) (f : β → β) (entries : List (String × β)) :
    (supply name fresh f entries).lookup other = entries.lookup other := by
  rw [supply]
  split
  next => exact lookup_adjust_of_ne h f entries
  next => exact lookup_place_of_ne h (f fresh) entries

/-- Supplying a name and changing a value can change places, unless the value is the one that is supplied and
the changes cannot. -/
theorem supply_adjust (h : name = other → (∀ value, f (g value) = g (f value)) ∧ g (f fresh) = f fresh) :
    supply name fresh f (adjust other g entries) = adjust other g (supply name fresh f entries) := by
  by_cases hname : name = other
  · subst hname
    obtain ⟨hcomm, hfresh⟩ := h rfl
    cases hlookup : entries.lookup name with
    | none =>
      have hself : adjust name g entries = entries := by
        apply adjust_eq_self
        intro value hvalue
        rw [hlookup] at hvalue
        cases hvalue
      rw [hself, supply_of_free hlookup, adjust_place_self, hfresh]
    | some value =>
      have hchanged : (adjust name g entries).lookup name = some (g value) := by
        rw [lookup_adjust_self, hlookup, Option.map_some]
      rw [supply_of_lookup hlookup, supply_of_lookup hchanged, adjust_comm fun _ => hcomm]
  · rw [supply, supply, lookup_adjust_of_ne hname]
    split
    next => exact adjust_comm fun heq => absurd heq hname
    next => exact place_adjust hname (f fresh) g entries

/-- Two names can be supplied in either order, and so can one name twice if the same value is fresh for it and
the changes can change places. -/
theorem supply_comm {fresh' : β} (h : name = other → fresh = fresh' ∧ ∀ value, f (g value) = g (f value)) :
    supply name fresh f (supply other fresh' g entries) =
      supply other fresh' g (supply name fresh f entries) := by
  by_cases hname : name = other
  · subst hname
    obtain ⟨rfl, hcomm⟩ := h rfl
    rw [supply_of_lookup (lookup_supply_self _ _ _ _), supply_of_lookup (lookup_supply_self _ _ _ _)]
    cases hlookup : entries.lookup name with
    | none =>
      rw [supply_of_free hlookup, supply_of_free hlookup, adjust_place_self, adjust_place_self, hcomm]
    | some value =>
      rw [supply_of_lookup hlookup, supply_of_lookup hlookup, adjust_comm fun _ => hcomm]
  · cases hother : entries.lookup other with
    | some value =>
      have hother' : (supply name fresh f entries).lookup other = some value := by
        rw [lookup_supply_of_ne (Ne.symm hname), hother]
      rw [supply_of_lookup hother, supply_of_lookup hother', supply_adjust fun heq => absurd heq hname]
    | none =>
      have hother' : (supply name fresh f entries).lookup other = none := by
        rw [lookup_supply_of_ne (Ne.symm hname), hother]
      rw [supply_of_free hother, supply_of_free hother', supply, supply, lookup_place_of_ne hname]
      split
      next => exact (place_adjust (Ne.symm hname) (g fresh') f entries).symm
      next => exact place_comm hname (f fresh) (g fresh') entries

/-- What a name was supplied with is there the second time. -/
theorem supply_supply (h : ∀ value, f (f value) = f value) :
    supply name fresh f (supply name fresh f entries) = supply name fresh f entries := by
  rw [supply_of_lookup (lookup_supply_self _ _ _ _)]
  cases hlookup : entries.lookup name with
  | none => rw [supply_of_free hlookup, adjust_place_self, h]
  | some value => rw [supply_of_lookup hlookup, adjust_adjust h]

end VirtualShell.Entries
