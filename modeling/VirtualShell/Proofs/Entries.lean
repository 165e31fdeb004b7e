import Mathlib.Data.String.Basic
import VirtualShell.Entries

/-!
# Names in order

The entries of a directory are `Increasing`: each name occurs once, and the names are in order. Placing
and taking out keep them so, `sorted` makes them so (`increasing_sorted`) and changes nothing where they
are so already (`sorted_eq_self`).

The members of a document have each name once, in any order; `put` keeps that. Whenever no name occurs
twice, looking a name up finds exactly the entry that is there (`lookup_eq_some_iff_mem`).

Placing and taking out undo each other. A name that was placed leaves nothing behind (`erase_place`), and a
name that was taken out finds its place again where the names are in order (`place_erase`).
-/

namespace VirtualShell.Entries

variable {β : Type} {name : String} {value : β} {entries : List (String × β)}

/-- Each name is greater than the one before. -/
def Increasing (entries : List (String × β)) : Prop :=
  (names entries).Pairwise (· < ·)

theorem Increasing.nodup (h : Increasing entries) : (names entries).Nodup :=
  List.Pairwise.imp (fun hlt => ne_of_lt hlt) h

/-! ## Looking up -/

theorem mem_names_of_mem (h : (name, value) ∈ entries) : name ∈ names entries :=
  List.mem_map.2 ⟨_, h, rfl⟩

theorem mem_of_lookup (h : entries.lookup name = some value) : (name, value) ∈ entries := by
  induction entries with
  | nil => cases h
  | cons entry rest ih =>
    rw [lookup_cons_eq] at h
    split at h
    next heq =>
      obtain rfl := Option.some.inj h
      rw [heq]
      exact List.mem_cons_self
    next => exact List.mem_cons_of_mem _ (ih h)

/-- Without repeated names, what is there under a name is what looking the name up finds. -/
theorem lookup_eq_some_iff_mem (h : (names entries).Nodup) :
    entries.lookup name = some value ↔ (name, value) ∈ entries := by
  refine ⟨mem_of_lookup, fun hmem => ?_⟩
  induction entries with
  | nil => cases hmem
  | cons entry rest ih =>
    rw [names, List.map_cons, List.nodup_cons] at h
    rw [lookup_cons_eq]
    rcases List.mem_cons.1 hmem with rfl | hrest
    · rw [if_pos rfl]
    · have hne : name ≠ entry.1 := by
        rintro rfl
        exact h.1 (mem_names_of_mem hrest)
      rw [if_neg hne]
      exact ih h.2 hrest

theorem not_mem_names_of_lookup (h : entries.lookup name = none) : name ∉ names entries := by
  intro hmem
  obtain ⟨entry, hentry, rfl⟩ := List.mem_map.1 hmem
  have hne := List.lookup_eq_none_iff.1 h entry hentry
  rw [bne_self_eq_false] at hne
  cases hne

/-! ## Putting -/

/-- The second of two values that are given to a name counts. -/
theorem put_put (name : String) (first second : β) (entries : List (String × β)) :
    put name second (put name first entries) = put name second entries := by
  induction entries with
  | nil => simp [put]
  | cons entry rest ih =>
    by_cases hname : entry.1 = name
    · rw [put, if_pos hname, put, if_pos rfl, put, if_pos hname]
    · rw [put, if_neg hname, put, if_neg hname, ih, put, if_neg hname]

/-- Giving a name the value that it has changes nothing. -/
theorem put_eq_self (h : entries.lookup name = some value) : put name value entries = entries := by
  induction entries with
  | nil => cases h
  | cons entry rest ih =>
    rw [lookup_cons_eq] at h
    split at h
    next hname =>
      obtain rfl := Option.some.inj h
      rw [put, if_pos hname.symm, hname]
    next hname => rw [put, if_neg (Ne.symm hname), ih h]

/-- Putting under a name that is there changes no name. -/
theorem names_put_of_mem (h : name ∈ names entries) (value : β) :
    names (put name value entries) = names entries := by
  induction entries with
  | nil => cases h
  | cons entry rest ih =>
    rw [put]
    split
    next heq => rw [names, names, List.map_cons, List.map_cons, heq]
    next hne =>
      have hrest : name ∈ names rest := by
        rcases List.mem_cons.1 h with heq | hrest
        · exact absurd heq.symm hne
        · exact hrest
      rw [names, names, List.map_cons, List.map_cons]
      exact congrArg (entry.1 :: ·) (ih hrest)

/-- Putting under a name that is not there adds an entry at the end. -/
theorem put_eq_concat (h : name ∉ names entries) (value : β) :
    put name value entries = entries ++ [(name, value)] := by
  induction entries with
  | nil => rfl
  | cons entry rest ih =>
    rw [names, List.map_cons, List.mem_cons, not_or] at h
    rw [put, if_neg (Ne.symm h.1), ih h.2, List.cons_append]

theorem nodup_names_put (h : (names entries).Nodup) (name : String) (value : β) :
    (names (put name value entries)).Nodup := by
  by_cases hmem : name ∈ names entries
  · rw [names_put_of_mem hmem]
    exact h
  · rw [put_eq_concat hmem, names, List.map_append, List.nodup_append]
    refine ⟨h, List.pairwise_singleton _ _, fun a ha b hb => ?_⟩
    rintro rfl
    obtain rfl := List.mem_singleton.1 hb
    exact hmem ha

theorem mem_of_mem_put {entry : String × β} (h : entry ∈ put name value entries) :
    entry = (name, value) ∨ entry ∈ entries := by
  induction entries with
  | nil => exact .inl (List.mem_singleton.1 h)
  | cons first rest ih =>
    rw [put] at h
    split at h
    next =>
      rcases List.mem_cons.1 h with heq | hrest
      · exact .inl heq
      · exact .inr (List.mem_cons_of_mem _ hrest)
    next =>
      rcases List.mem_cons.1 h with heq | hrest
      · exact .inr (heq ▸ List.mem_cons_self)
      · exact (ih hrest).imp_right (List.mem_cons_of_mem _)

/-! ## Placing -/

theorem mem_of_mem_place {entry : String × β} (h : entry ∈ place name value entries) :
    entry = (name, value) ∨ entry ∈ entries := by
  induction entries with
  | nil => exact .inl (List.mem_singleton.1 h)
  | cons first rest ih =>
    rw [place] at h
    split at h
    next =>
      rcases List.mem_cons.1 h with heq | hrest
      · exact .inl heq
      · exact .inr (List.mem_cons_of_mem _ hrest)
    next =>
      split at h
      next => exact (List.mem_cons.1 h)
      next =>
        rcases List.mem_cons.1 h with heq | hrest
        · exact .inr (heq ▸ List.mem_cons_self)
        · exact (ih hrest).imp_right (List.mem_cons_of_mem _)

/-- Placing keeps the entries of other names. -/
theorem mem_place_of_ne {entry : String × β} (h : entry.1 ≠ name) (hentry : entry ∈ entries) :
    entry ∈ place name value entries := by
  induction entries with
  | nil => cases hentry
  | cons first rest ih =>
    rw [place]
    split
    next heq =>
      rcases List.mem_cons.1 hentry with rfl | hrest
      · exact absurd heq.symm h
      · exact List.mem_cons_of_mem _ hrest
    next =>
      split
      next => exact List.mem_cons_of_mem _ hentry
      next =>
        rcases List.mem_cons.1 hentry with rfl | hrest
        · exact List.mem_cons_self
        · exact List.mem_cons_of_mem _ (ih hrest)

theorem mem_names_place {other : String} (h : other ∈ names (place name value entries)) :
    other = name ∨ other ∈ names entries := by
  obtain ⟨entry, hentry, rfl⟩ := List.mem_map.1 h
  rcases mem_of_mem_place hentry with rfl | hmem
  · exact .inl rfl
  · exact .inr (List.mem_map.2 ⟨entry, hmem, rfl⟩)

theorem increasing_place (h : Increasing entries) (name : String) (value : β) :
    Increasing (place name value entries) := by
  induction entries with
  | nil => exact List.pairwise_singleton _ _
  | cons entry rest ih =>
    obtain ⟨first, old⟩ := entry
    obtain ⟨hfirst, hrest⟩ := List.pairwise_cons.1 h
    rw [place]
    split
    next heq =>
      subst heq
      exact h
    next hne =>
      split
      next hlt =>
        refine List.pairwise_cons.2 ⟨fun other hother => ?_, h⟩
        rcases List.mem_cons.1 hother with rfl | hother
        · exact hlt
        · exact lt_trans hlt (hfirst other hother)
      next hnlt =>
        refine List.pairwise_cons.2 ⟨fun other hother => ?_, ih hrest⟩
        rcases mem_names_place hother with rfl | hother
        · exact lt_of_le_of_ne (not_lt.1 hnlt) (Ne.symm hne)
        · exact hfirst other hother

/-- A name greater than all others is placed at the end. -/
theorem place_eq_concat (h : ∀ other ∈ names entries, other < name) (value : β) :
    place name value entries = entries ++ [(name, value)] := by
  induction entries with
  | nil => rfl
  | cons entry rest ih =>
    have hfirst : entry.1 < name := h _ List.mem_cons_self
    rw [place, if_neg (ne_of_gt hfirst), if_neg (not_lt_of_gt hfirst),
      ih fun other hother => h other (List.mem_cons_of_mem _ hother), List.cons_append]

theorem place_cons_self (name : String) (old value : β) (rest : List (String × β)) :
    place name value ((name, old) :: rest) = (name, value) :: rest := by
  rw [place, if_pos rfl]

theorem place_cons_of_lt {first : String} (h : name < first) (old value : β) (rest : List (String × β)) :
    place name value ((first, old) :: rest) = (name, value) :: (first, old) :: rest := by
  rw [place, if_neg (ne_of_lt h), if_pos h]

theorem place_cons_of_gt {first : String} (h : first < name) (old value : β) (rest : List (String × β)) :
    place name value ((first, old) :: rest) = (first, old) :: place name value rest := by
  rw [place, if_neg (ne_of_gt h), if_neg (not_lt_of_gt h)]

private theorem place_comm_of_lt {other : String} (h : name < other) (value value' : β)
    (entries : List (String × β)) :
    place name value (place other value' entries) = place other value' (place name value entries) := by
  induction entries with
  | nil => rw [place, place, place_cons_of_lt h, place_cons_of_gt h, place]
  | cons entry rest ih =>
    obtain ⟨first, old⟩ := entry
    rcases lt_trichotomy name first with hbefore | rfl | hafter
    · rw [place_cons_of_lt hbefore, place_cons_of_gt h]
      -- the smaller name comes first, wherever the other one goes
      rcases lt_trichotomy other first with hother | rfl | hother
      · rw [place_cons_of_lt hother, place_cons_of_lt h]
      · rw [place_cons_self, place_cons_of_lt h]
      · rw [place_cons_of_gt hother, place_cons_of_lt hbefore]
    · rw [place_cons_of_gt h, place_cons_self, place_cons_self, place_cons_of_gt h]
    · have hafter' : first < other := lt_trans hafter h
      rw [place_cons_of_gt hafter', place_cons_of_gt hafter, ih, place_cons_of_gt hafter,
        place_cons_of_gt hafter']

/-- Two names find their places in either order, also where the names are in no order. -/
theorem place_comm {other : String} (h : name ≠ other) (value value' : β) (entries : List (String × β)) :
    place name value (place other value' entries) = place other value' (place name value entries) := by
  rcases lt_or_gt_of_ne h with hlt | hgt
  · exact place_comm_of_lt hlt value value' entries
  · exact (place_comm_of_lt hgt value' value entries).symm

/-! ## Taking out -/

theorem increasing_erase (h : Increasing entries) (name : String) :
    Increasing (erase name entries) :=
  List.Pairwise.sublist (List.filter_sublist.map _) h

theorem erase_cons_self (name : String) (value : β) (rest : List (String × β)) :
    erase name ((name, value) :: rest) = erase name rest := by
  rw [erase, erase, List.filter_cons_of_neg (by simp)]

theorem erase_cons_of_ne {other : String} (h : other ≠ name) (value : β) (rest : List (String × β)) :
    erase name ((other, value) :: rest) = (other, value) :: erase name rest := by
  rw [erase, erase, List.filter_cons_of_pos (by simp [h])]

/-- Taking out a name that is not there changes nothing. -/
theorem erase_eq_self (h : entries.lookup name = none) : erase name entries = entries := by
  rw [erase, List.filter_eq_self]
  intro entry hentry
  rw [bne_iff_ne]
  rintro rfl
  exact not_mem_names_of_lookup h (List.mem_map_of_mem hentry)

theorem erase_erase (name : String) (entries : List (String × β)) :
    erase name (erase name entries) = erase name entries :=
  erase_eq_self (lookup_erase_self name entries)

theorem erase_comm (name other : String) (entries : List (String × β)) :
    erase name (erase other entries) = erase other (erase name entries) := by
  rw [erase, erase, erase, erase, List.filter_filter, List.filter_filter]
  exact List.filter_congr fun _ _ => Bool.and_comm _ _

/-- A name that was placed and is taken out again leaves nothing behind. -/
theorem erase_place (h : entries.lookup name = none) (value : β) :
    erase name (place name value entries) = entries := by
  induction entries with
  | nil => simp [place, erase]
  | cons entry rest ih =>
    obtain ⟨first, old⟩ := entry
    have hrest := h
    rw [lookup_cons_eq] at hrest
    split at hrest
    next => cases hrest
    next hname =>
      rw [place, if_neg hname]
      split
      next => rw [erase_cons_self, erase_eq_self h]
      next => rw [erase_cons_of_ne (Ne.symm hname), ih hrest]

/-- A name that was taken out is placed again where it was, since the names are in order. -/
theorem place_erase (hentries : Increasing entries) (h : entries.lookup name = some value) :
    place name value (erase name entries) = entries := by
  induction entries with
  | nil => cases h
  | cons entry rest ih =>
    obtain ⟨first, old⟩ := entry
    obtain ⟨hfirst, hrest⟩ := List.pairwise_cons.1 hentries
    rw [lookup_cons_eq] at h
    split at h
    next hname =>
      obtain rfl : name = first := hname
      obtain rfl : old = value := Option.some.inj h
      have hgone : rest.lookup name = none := by
        rw [List.lookup_eq_none_iff]
        intro other hother
        exact bne_iff_ne.2 (ne_of_lt (hfirst other.1 (List.mem_map_of_mem hother)))
      rw [erase_cons_self, erase_eq_self hgone]
      cases rest with
      | nil => rfl
      | cons next rest =>
        have hlt : name < next.1 := hfirst next.1 List.mem_cons_self
        rw [place, if_neg (ne_of_lt hlt), if_pos hlt]
    next hname =>
      have hlt : first < name := hfirst name (mem_names_of_mem (mem_of_lookup h))
      rw [erase_cons_of_ne (ne_of_lt hlt), place, if_neg hname, if_neg (not_lt_of_gt hlt), ih hrest h]

/-! ## Sorting -/

/-- What placing keeps, sorting makes. -/
theorem sorted_induction {P : List (String × β) → Prop} (hnil : P [])
    (hplace : ∀ entry ∈ entries, ∀ placed, P placed → P (place entry.1 entry.2 placed)) :
    P (sorted entries) := by
  suffices h : ∀ (rest placed : List (String × β)), (∀ entry ∈ rest, entry ∈ entries) → P placed →
      P (rest.foldl (fun placed (entry : String × β) => place entry.1 entry.2 placed) placed) from
    h entries [] (fun _ hentry => hentry) hnil
  intro rest
  induction rest with
  | nil => exact fun _ _ hplaced => hplaced
  | cons entry rest ih =>
    intro placed hsub hplaced
    exact ih _ (fun other hother => hsub other (List.mem_cons_of_mem _ hother))
      (hplace entry (hsub entry List.mem_cons_self) placed hplaced)

theorem increasing_sorted (entries : List (String × β)) : Increasing (sorted entries) :=
  sorted_induction List.Pairwise.nil fun entry _ _ h => increasing_place h entry.1 entry.2

theorem mem_of_mem_sorted {entry : String × β} (h : entry ∈ sorted entries) : entry ∈ entries := by
  refine sorted_induction (P := fun placed => entry ∈ placed → entry ∈ entries)
    (fun hnil => absurd hnil List.not_mem_nil) (fun next hnext placed ih hplaced => ?_) h
  rcases mem_of_mem_place hplaced with rfl | hmem
  · exact hnext
  · exact ih hmem

/-- Sorting loses nothing as long as no name occurs twice. -/
theorem mem_sorted_of_mem (h : (names entries).Nodup) {entry : String × β} (hentry : entry ∈ entries) :
    entry ∈ sorted entries := by
  suffices hfold : ∀ rest placed : List (String × β), (names rest).Nodup →
      entry ∈ rest ∨ entry ∈ placed ∧ entry.1 ∉ names rest →
        entry ∈ rest.foldl (fun placed (entry : String × β) => place entry.1 entry.2 placed) placed from
    hfold entries [] h (.inl hentry)
  intro rest
  induction rest with
  | nil =>
    rintro placed - (hnil | ⟨hplaced, -⟩)
    · exact absurd hnil List.not_mem_nil
    · exact hplaced
  | cons first rest ih =>
    intro placed hnodup hwhere
    obtain ⟨hfirst, hrest⟩ := List.nodup_cons.1 hnodup
    refine ih _ hrest ?_
    rcases hwhere with hmem | ⟨hplaced, hnot⟩
    · rcases List.mem_cons.1 hmem with rfl | hmem
      · exact .inr ⟨mem_of_lookup (lookup_place_self _ _ _), hfirst⟩
      · exact .inl hmem
    · rw [names, List.map_cons, List.mem_cons, not_or] at hnot
      exact .inr ⟨mem_place_of_ne hnot.1 hplaced, hnot.2⟩

/-- Sorting changes nothing that is in order. -/
theorem sorted_eq_self (h : Increasing entries) : sorted entries = entries := by
  suffices hfold : ∀ rest placed : List (String × β), Increasing (placed ++ rest) →
      rest.foldl (fun placed (entry : String × β) => place entry.1 entry.2 placed) placed =
        placed ++ rest from
    hfold entries [] h
  intro rest
  induction rest with
  | nil => exact fun placed _ => (List.append_nil placed).symm
  | cons entry rest ih =>
    intro placed hincreasing
    have hsplit := hincreasing
    rw [Increasing, names, List.map_append, List.pairwise_append] at hsplit
    have hbelow : ∀ other ∈ names placed, other < entry.1 := fun other hother =>
      hsplit.2.2 other hother entry.1 List.mem_cons_self
    rw [List.foldl_cons, place_eq_concat hbelow, ih]
    · rw [List.append_assoc]
      rfl
    · rw [List.append_assoc]
      exact hincreasing

end VirtualShell.Entries
