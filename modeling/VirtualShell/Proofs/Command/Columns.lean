import Mathlib.Data.String.Basic
import VirtualShell.Command.Output

/-!
# The columns of a table

The width of a column is the greatest number of bytes that a cell in it has, and a cell is filled up to the width
by characters. A character takes at least one byte (`Text.length_le_utf8ByteSize`), so no cell is longer than its
column is wide, and a cell that is filled up is exactly as long. Hence a column begins at the same place in every
row (`columnStart`), whatever the cells are and however many of them a row has (`standsIn_fullRow`). Trimming a row
takes nothing from a cell but blanks at its end, and only if the row ends there (`StandsIn.appearsIn`).

That each cell has a width is an invariant of the widening by one row after the other (`Holds.widen`,
`holds_widths`).
-/

namespace VirtualShell

namespace Text

/-- A character takes at least one byte. -/
theorem length_le_utf8ByteSize (s : String) : s.length ≤ s.utf8ByteSize := by
  induction s using String.push_induction with
  | empty => exact Nat.le_refl 0
  | push text c ih =>
    have hpos := c.utf8Size_pos
    rw [String.length_push, String.utf8ByteSize_push]
    omega

theorem toList_padRight (width : Nat) (s : String) :
    (padRight width s).toList = s.toList ++ List.replicate (width - s.length) ' ' := by
  rw [padRight, String.toList_ofList, List.rightpad, String.length_toList]

/-- Nothing but blanks is cut off at the end, and all of them. -/
structure Trimmed (text shown : List Char) : Prop where
  cut : ∃ blanks, text = shown ++ blanks ∧ ∀ c ∈ blanks, isBlank c = true
  ends : ∀ c, shown.getLast? = some c → isBlank c = false

theorem trimmed_trimEnd (s : String) : Trimmed s.toList (trimEnd s).toList where
  cut := by
    refine ⟨(s.toList.reverse.takeWhile isBlank).reverse, ?_, fun c hc => ?_⟩
    · rw [trimEnd, String.toList_ofList, dropEndWhile, ← List.reverse_append, List.takeWhile_append_dropWhile,
        List.reverse_reverse]
    · exact List.all_eq_true.1 List.all_takeWhile c (List.mem_reverse.1 hc)
  ends c hc := by
    have hlast := List.head?_dropWhile_not isBlank s.toList.reverse
    rw [trimEnd, String.toList_ofList, dropEndWhile, List.getLast?_reverse] at hc
    rwa [hc] at hlast

/-- A character that is not blank stays, and so does what stands before it. -/
theorem Trimmed.exists_kept {before behind shown : List Char} {c : Char}
    (h : Trimmed (before ++ c :: behind) shown) (hc : isBlank c = false) :
    ∃ kept blanks, shown = before ++ c :: kept ∧ behind = kept ++ blanks ∧ ∀ b ∈ blanks, isBlank b = true := by
  obtain ⟨blanks, htext, hblanks⟩ := h.cut
  have hstays : c ∉ blanks := fun hmem => Bool.noConfusion (hc.symm.trans (hblanks c hmem))
  rcases List.append_eq_append_iff.1 htext with ⟨rest, hshown, hrest⟩ | ⟨rest, -, hrest⟩
  · cases rest with
    | nil =>
      rw [List.nil_append] at hrest
      exact absurd (hrest ▸ List.mem_cons_self) hstays
    | cons first kept =>
      obtain ⟨rfl, hbehind⟩ := List.cons.inj hrest
      exact ⟨kept, blanks, hshown, hbehind, hblanks⟩
  · exact absurd (hrest ▸ List.mem_append_right rest List.mem_cons_self) hstays

end Text

namespace Table

variable {columns : List Nat} {cells : List String} {rows : List (List String)}

/-! ## Widths -/

/-- Every cell of a row has a column, and its bytes fit into the width of it. -/
def Holds (columns : List Nat) (cells : List String) : Prop :=
  ∀ (i : Nat) (cell : String), cells[i]? = some cell →
    ∃ width, columns[i]? = some width ∧ cell.utf8ByteSize ≤ width

theorem getElem?_widen (columns : List Nat) (cells : List String) (i : Nat) :
    (widen columns cells)[i]? = Option.merge max columns[i]? (cells[i]?.map String.utf8ByteSize) := by
  fun_induction widen columns cells generalizing i with
  | case1 columns => simp
  | case2 cell cells ih => cases i <;> simp [ih]
  | case3 width columns cell cells ih => cases i <;> simp [ih]

/-- Widened by a row, the columns hold it. -/
theorem holds_widen (columns : List Nat) (cells : List String) : Holds (widen columns cells) cells := by
  intro i cell hcell
  rw [getElem?_widen, hcell, Option.map_some]
  cases columns[i]? with
  | none => exact ⟨_, rfl, Nat.le_refl _⟩
  | some width => exact ⟨_, rfl, Nat.le_max_right _ _⟩

/-- Widened by another row, the columns hold what they held. -/
theorem Holds.widen (h : Holds columns cells) (others : List String) :
    Holds (Table.widen columns others) cells := by
  intro i cell hcell
  obtain ⟨width, hwidth, hle⟩ := h i cell hcell
  rw [getElem?_widen, hwidth]
  cases others[i]? with
  | none => exact ⟨width, rfl, hle⟩
  | some other => exact ⟨_, rfl, Nat.le_trans hle (Nat.le_max_left _ _)⟩

theorem Holds.foldl_widen (h : Holds columns cells) (rows : List (List String)) :
    Holds (rows.foldl Table.widen columns) cells := by
  induction rows generalizing columns with
  | nil => exact h
  | cons others rows ih => exact ih (h.widen others)

/-- The columns of a table hold each of its rows. -/
theorem holds_widths (h : cells ∈ rows) : Holds (widths rows) cells := by
  obtain ⟨earlier, later, rfl⟩ := List.append_of_mem h
  rw [widths, List.foldl_append, List.foldl_cons]
  exact (holds_widen _ cells).foldl_widen later

theorem Holds.length_le (h : Holds columns cells) : cells.length ≤ columns.length := by
  by_contra hlt
  obtain ⟨width, hwidth, -⟩ := h columns.length cells[columns.length] (List.getElem?_eq_getElem (by omega))
  rw [List.getElem?_eq_none (Nat.le_refl _)] at hwidth
  cases hwidth

/-- The first cell of a row is held by the first column, and the others by the others. -/
theorem Holds.exists_cons {cell : String} (h : Holds columns (cell :: cells)) :
    ∃ width others, columns = width :: others ∧ cell.length ≤ width ∧ Holds others cells := by
  obtain ⟨width, hwidth, hbytes⟩ := h 0 cell rfl
  cases columns with
  | nil => cases hwidth
  | cons first others =>
    obtain rfl : first = width := Option.some.inj hwidth
    exact ⟨first, others, rfl, Nat.le_trans (Text.length_le_utf8ByteSize cell) hbytes,
      fun i other hother => h (i + 1) other hother⟩

theorem Holds.ne_nil (h : Holds columns cells) (hcells : cells ≠ []) : columns ≠ [] := by
  rintro rfl
  exact hcells (List.eq_nil_of_length_eq_zero (Nat.le_zero.1 h.length_le))

/-! ## Places -/

/-- Where a column begins: behind the columns before it, each with two spaces after it. -/
def columnStart : List Nat → Nat → Nat
  | _, 0 => 0
  | [], i + 1 => columnStart [] i + 2
  | width :: columns, i + 1 => width + 2 + columnStart columns i

theorem columnStart_zero (columns : List Nat) : columnStart columns 0 = 0 := by
  rw [columnStart]

theorem columnStart_cons (width : Nat) (columns : List Nat) (i : Nat) :
    columnStart (width :: columns) (i + 1) = width + 2 + columnStart columns i := by
  rw [columnStart]

/-- Two spaces at least stand between the beginnings of two columns. -/
theorem columnStart_add_two_le (columns : List Nat) (i : Nat) :
    columnStart columns i + 2 ≤ columnStart columns (i + 1) := by
  induction i generalizing columns with
  | zero => cases columns <;> simp [columnStart]
  | succ i ih =>
    cases columns with
    | nil => exact Nat.add_le_add_right (ih []) 2
    | cons width columns =>
      have hrest := ih columns
      rw [columnStart_cons, columnStart_cons]
      omega

/-- A cell stands in a text at a place, with only spaces behind it up to another place. If there is no other
place, there are only spaces up to the end. -/
def StandsIn (text : List Char) (start : Nat) (stop : Option Nat) (cell : String) : Prop :=
  ∃ before gap behind, text = before ++ cell.toList ++ List.replicate gap ' ' ++ behind ∧
    before.length = start ∧
    match stop with
    | some stop => start + cell.length + gap = stop
    | none => behind = []

/-- Where the spaces behind a cell end: where the next cell begins, if the row has one. -/
def nextStart (start : Nat → Nat) (cells : List String) (i : Nat) : Option Nat :=
  if i + 1 < cells.length then some (start (i + 1)) else none

/-- Behind another text, a cell stands that much further on. -/
theorem StandsIn.append {text : List Char} {start : Nat} {stop : Option Nat} {cell : String}
    (h : StandsIn text start stop cell) (front : List Char) :
    StandsIn (front ++ text) (front.length + start) (stop.map (front.length + ·)) cell := by
  obtain ⟨before, gap, behind, htext, hstart, hstop⟩ := h
  refine ⟨front ++ before, gap, behind, by simp [htext], by simp [hstart], ?_⟩
  cases stop with
  | none => exact hstop
  | some stop =>
    simp only [Option.map_some] at hstop ⊢
    omega

theorem fullRow_singleton (width : Nat) (columns : List Nat) (cell : String) :
    (fullRow (width :: columns) [cell]).toList =
      cell.toList ++ List.replicate (width - cell.length) ' ' := by
  rw [fullRow, List.zipWith_cons_cons, List.zipWith_nil_right, String.intercalate_singleton,
    Text.toList_padRight]

/-- A row of more cells: the first one with spaces up to its width and two more, and the row of the others. -/
theorem fullRow_cons (width : Nat) (hcolumns : columns ≠ []) (cell : String) (hcells : cells ≠ []) :
    (fullRow (width :: columns) (cell :: cells)).toList =
      cell.toList ++ List.replicate (width - cell.length + 2) ' ' ++ (fullRow columns cells).toList := by
  have hrest : List.zipWith Text.padRight columns cells ≠ [] := by
    simp [List.zipWith_eq_nil_iff, hcolumns, hcells]
  rw [fullRow, List.zipWith_cons_cons, String.intercalate_cons_of_ne_nil hrest, String.toList_append,
    String.toList_append, Text.toList_padRight, List.replicate_add, fullRow]
  simp

/-- In a row that the columns hold, every cell stands where its column begins. -/
theorem standsIn_fullRow (h : Holds columns cells) {i : Nat} {cell : String} (hcell : cells[i]? = some cell) :
    StandsIn (fullRow columns cells).toList (columnStart columns i)
      (nextStart (columnStart columns) cells i) cell := by
  -- the row loses its first cell together with the first column, behind which the others stand in place
  induction cells generalizing columns i with
  | nil => cases hcell
  | cons first rest ih =>
    obtain ⟨width, others, rfl, hfits, hrest⟩ := h.exists_cons
    cases i with
    | zero =>
      obtain rfl : first = cell := Option.some.inj hcell
      by_cases hlast : rest = []
      · subst hlast
        exact ⟨[], width - first.length, [], by simp [fullRow_singleton], rfl, rfl⟩
      · have hmore : 0 + 1 < (first :: rest).length := by
          have hpos := List.length_pos_iff.2 hlast
          rw [List.length_cons]
          omega
        refine ⟨[], width - first.length + 2, (fullRow others rest).toList, ?_, rfl, ?_⟩
        · rw [fullRow_cons width (hrest.ne_nil hlast) first hlast, List.nil_append]
        · simp only [nextStart, if_pos hmore, columnStart_cons, columnStart_zero]
          omega
    | succ i =>
      have hcell : rest[i]? = some cell := hcell
      have hne : rest ≠ [] := by
        rintro rfl
        cases hcell
      have hplaced := (ih hrest hcell).append (first.toList ++ List.replicate (width - first.length + 2) ' ')
      have hlength : (first.toList ++ List.replicate (width - first.length + 2) ' ').length = width + 2 := by
        rw [List.length_append, List.length_replicate, String.length_toList]
        omega
      have hnext : (nextStart (columnStart others) rest i).map (width + 2 + ·) =
          nextStart (columnStart (width :: others)) (first :: rest) (i + 1) := by
        simp only [nextStart, List.length_cons, Nat.add_lt_add_iff_right, columnStart_cons]
        split <;> rfl
      rw [hlength, hnext] at hplaced
      rwa [fullRow_cons width (hrest.ne_nil hne) first hne, columnStart_cons]

/-! ## Trimmed rows -/

/-- A cell is shown from a place on. If anything is missing, it is blanks at the end of the cell, and nothing
follows. -/
def AppearsIn (shown : List Char) (start : Nat) (cell : String) : Prop :=
  ∃ before kept lost behind, shown = before ++ kept ++ behind ∧ before.length = start ∧
    cell.toList = kept ++ lost ∧ (∀ c ∈ lost, Text.isBlank c = true) ∧ (lost = [] ∨ behind = [])

/-- Trimming a text leaves in their places the cells that are not blank. -/
theorem StandsIn.appearsIn {text shown : List Char} {start : Nat} {stop : Option Nat} {cell : String}
    (h : StandsIn text start stop cell) (htrimmed : Text.Trimmed text shown)
    (hcell : ∃ c ∈ cell.toList, Text.isBlank c = false) : AppearsIn shown start cell := by
  obtain ⟨before, gap, behind, rfl, hstart, -⟩ := h
  obtain ⟨c, hmem, hc⟩ := hcell
  obtain ⟨first, last, hchars⟩ := List.append_of_mem hmem
  have htext : before ++ cell.toList ++ List.replicate gap ' ' ++ behind =
      (before ++ first) ++ c :: (last ++ (List.replicate gap ' ' ++ behind)) := by
    simp [hchars]
  rw [htext] at htrimmed
  obtain ⟨kept, blanks, hshown, hrest, hblanks⟩ := htrimmed.exists_kept hc
  rcases List.append_eq_append_iff.1 hrest with ⟨more, rfl, -⟩ | ⟨lost, rfl, rfl⟩
  · refine ⟨before, cell.toList, [], more, ?_, hstart, (List.append_nil _).symm, List.forall_mem_nil _, .inl rfl⟩
    simp [hshown, hchars]
  · refine ⟨before, first ++ c :: kept, lost, [], ?_, hstart, ?_, fun b hb => ?_, .inr rfl⟩
    · simp [hshown]
    · simp [hchars]
    · exact hblanks b (List.mem_append_left _ hb)

/-- How a row is laid out, in full and as it is shown. -/
structure Laid (start : Nat → Nat) (cells : List String) (full shown : String) : Prop where
  /-- Every cell stands where its column begins, with only spaces behind it. -/
  placed : ∀ (i : Nat) (cell : String), cells[i]? = some cell →
    StandsIn full.toList (start i) (nextStart start cells i) cell
  /-- There is nothing but cells and what stands behind them. -/
  empty : cells = [] → full = ""
  trimmed : Text.Trimmed full.toList shown.toList
  appears : ∀ (i : Nat) (cell : String), cells[i]? = some cell →
    (∃ c ∈ cell.toList, Text.isBlank c = false) → AppearsIn shown.toList (start i) cell

theorem Holds.laid (h : Holds columns cells) :
    Laid (columnStart columns) cells (fullRow columns cells) (row columns cells) where
  placed _ _ hcell := standsIn_fullRow h hcell
  empty hempty := by rw [hempty, fullRow, List.zipWith_nil_right, String.intercalate_nil]
  trimmed := Text.trimmed_trimEnd _
  appears _ _ hcell := (standsIn_fullRow h hcell).appearsIn (Text.trimmed_trimEnd _)

end Table

end VirtualShell
