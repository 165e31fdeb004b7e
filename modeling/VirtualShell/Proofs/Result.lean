/-!
# Results that may be errors

When a computation that may fail gives a value. Functions that plan, load or check are peeled apart with
these laws, one stage at a time.
-/

namespace VirtualShell.Result

variable {ε ε' α β : Type}

/-- Two stages succeed if the first does and the second does with its value. -/
theorem bind_eq_ok_iff {first : Except ε α} {second : α → Except ε β} {b : β} :
    (first >>= second) = .ok b ↔ ∃ a, first = .ok a ∧ second a = .ok b := by
  cases first with
  | error failure =>
    constructor
    · intro h
      cases h
    · rintro ⟨a, h, -⟩
      cases h
  | ok a =>
    constructor
    · intro h
      exact ⟨a, rfl, h⟩
    · rintro ⟨_, h, hsecond⟩
      cases h
      exact hsecond

/-- A result that has a value has no error. -/
theorem eq_ok_of_toOption {result : Except ε α} {a : α} (h : result.toOption = some a) :
    result = .ok a := by
  cases result with
  | error failure => cases h
  | ok b =>
    obtain rfl := Option.some.inj h
    rfl

theorem map_eq_ok_iff {result : Except ε α} {f : α → β} {b : β} :
    result.map f = .ok b ↔ ∃ a, result = .ok a ∧ f a = b := by
  cases result <;> simp [Except.map]

/-- Wording a failure differently makes no success. -/
theorem mapError_eq_ok_iff {result : Except ε α} {f : ε → ε'} {a : α} :
    result.mapError f = .ok a ↔ result = .ok a := by
  cases result with
  | error failure => exact ⟨fun h => (nomatch h), fun h => (nomatch h)⟩
  | ok b =>
    exact ⟨fun h => congrArg Except.ok (Except.ok.inj h), fun h => congrArg Except.ok (Except.ok.inj h)⟩

/-- A traversal ends at the first item that fails. -/
theorem mapM_append_cons_error {f : α → Except ε β} {before : List α} {item : α} {failure : ε}
    (hbefore : ∀ a ∈ before, ∃ b, f a = .ok b) (h : f item = .error failure) (after : List α) :
    (before ++ item :: after).mapM f = .error failure := by
  induction before with
  | nil =>
    rw [List.nil_append, List.mapM_cons, h]
    rfl
  | cons first rest ih =>
    obtain ⟨⟨b, hfirst⟩, hrest⟩ := List.forall_mem_cons.1 hbefore
    rw [List.cons_append, List.mapM_cons, hfirst, ih hrest]
    rfl

/-- Whatever a traversal that succeeds gives, it gives for one of the items. -/
theorem exists_mem_of_mapM {f : α → Except ε β} {items : List α} {results : List β}
    (h : items.mapM f = .ok results) : ∀ b ∈ results, ∃ a ∈ items, f a = .ok b := by
  induction items generalizing results with
  | nil =>
    cases h
    exact List.forall_mem_nil _
  | cons item rest ih =>
    rw [List.mapM_cons] at h
    obtain ⟨first, hfirst, h⟩ := bind_eq_ok_iff.1 h
    obtain ⟨others, hothers, h⟩ := bind_eq_ok_iff.1 h
    cases h
    refine List.forall_mem_cons.2 ⟨⟨item, List.mem_cons_self, hfirst⟩, fun b hb => ?_⟩
    obtain ⟨a, ha, hresult⟩ := ih hothers b hb
    exact ⟨a, List.mem_cons_of_mem item ha, hresult⟩

end VirtualShell.Result
