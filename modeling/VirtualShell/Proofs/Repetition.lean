import Mathlib.Data.List.Perm.Basic

/-!
# Steps whose order and repetition do not matter

A step is taken for each item of a list. If two steps can change places and a step does nothing the second
time, then what all of them come to is a matter of the set of the items (`Orderless.foldl_congr`). Commands
with several operands are compared in this way.
-/

namespace VirtualShell

variable {α σ : Type} {step : σ → α → σ} {items others : List α} {item : α}

/-- Items that all occur on both sides. -/
theorem mem_iff_of_subset (hitems : items ⊆ others) (hothers : others ⊆ items) (item : α) :
    item ∈ items ↔ item ∈ others :=
  ⟨fun hmem => hitems hmem, fun hmem => hothers hmem⟩

/-- A step that can change places with any other one and that does nothing the second time. -/
structure Orderless (step : σ → α → σ) : Prop where
  comm : ∀ (state : σ) (item other : α),
    step (step state item) other = step (step state other) item
  again : ∀ (state : σ) (item : α), step (step state item) item = step state item

namespace Orderless

/-- Steps for items that stand for other ones. -/
theorem comp {β : Type} (h : Orderless step) (f : β → α) :
    Orderless fun state item => step state (f item) where
  comm state item other := h.comm state (f item) (f other)
  again state item := h.again state (f item)

/-- A step that will be taken need not be taken before. -/
theorem foldl_step_of_mem (h : Orderless step) (hitem : item ∈ items) (state : σ) :
    items.foldl step (step state item) = items.foldl step state := by
  induction items generalizing state with
  | nil => cases hitem
  | cons first rest ih =>
    rw [List.foldl_cons, List.foldl_cons]
    rcases List.mem_cons.1 hitem with rfl | hrest
    · rw [h.again]
    · rw [h.comm, ih hrest]

theorem foldl_foldl_of_subset (h : Orderless step) (hsub : others ⊆ items) (state : σ) :
    items.foldl step (others.foldl step state) = items.foldl step state := by
  induction others generalizing state with
  | nil => rfl
  | cons first rest ih =>
    obtain ⟨hfirst, hrest⟩ := List.cons_subset.1 hsub
    rw [List.foldl_cons, ih hrest, h.foldl_step_of_mem hfirst]

/-- Neither the order of the items nor how often they occur matters. -/
theorem foldl_congr (h : Orderless step) (hsame : ∀ item, item ∈ items ↔ item ∈ others) (state : σ) :
    items.foldl step state = others.foldl step state := by
  have hswap : (others ++ items).foldl step state = (items ++ others).foldl step state :=
    List.perm_append_comm.foldl_eq' (fun item _ other _ state => h.comm state item other) state
  rw [List.foldl_append, List.foldl_append] at hswap
  rw [← h.foldl_foldl_of_subset (fun item hmem => (hsame item).2 hmem), hswap,
    h.foldl_foldl_of_subset fun item hmem => (hsame item).1 hmem]

end Orderless

end VirtualShell
