import VirtualShell.Config

/-!
# Settings without fault

Faults are looked for one after the other, so that a setting further down has passed only if all those above it
have. Settings that `validate` lets through have passed every check, and are left as they are.
-/

namespace VirtualShell.Config

variable {config checked : Config}

theorem fault?_eq_none_iff : config.fault? = none ↔ Text.startsWith config.home "/" = true ∧
    ¬ (config.user.isEmpty || config.user.toList.any Text.isBlank) = true ∧ config.historyLimit ≠ 0 := by
  unfold fault?
  by_cases hhome : Text.startsWith config.home "/" = true
  · by_cases huser : (config.user.isEmpty || config.user.toList.any Text.isBlank) = true
    · simp [hhome, huser]
    · simp [hhome, huser]
  · simp [hhome]

theorem validate_eq_ok_iff : config.validate = .ok checked ↔ config.fault? = none ∧ config = checked := by
  unfold validate
  cases config.fault? with
  | none => simp
  | some fault => simp

/-- Settings that have no fault are left as they are. -/
theorem eq_of_validate (h : config.validate = .ok checked) : config = checked :=
  (validate_eq_ok_iff.1 h).2

/-- Settings without fault have a home that is written from the root on. -/
theorem startsWith_home (h : config.validate = .ok config) : Text.startsWith config.home "/" = true :=
  (fault?_eq_none_iff.1 (validate_eq_ok_iff.1 h).1).1

/-- Settings without fault let the history keep something. -/
theorem historyLimit_pos (h : config.validate = .ok config) : 0 < config.historyLimit :=
  Nat.pos_of_ne_zero (fault?_eq_none_iff.1 (validate_eq_ok_iff.1 h).1).2.2

end VirtualShell.Config
