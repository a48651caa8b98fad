import TraceStore.Json.Fault

/-!
# Results of steps that may be refused

What a chain of steps gives, it gives through each of them.
-/

namespace TraceStore

variable {α β ε : Type} {first : Except ε α} {value : β}

theorem bind_eq_ok_iff {next : α → Except ε β} :
    (first >>= next) = .ok value ↔ ∃ between, first = .ok between ∧ next between = .ok value := by
  cases first with
  | error fault => simp [bind, Except.bind]
  | ok between => simp [bind, Except.bind]

theorem map_eq_ok_iff {change : α → β} :
    first.map change = .ok value ↔ ∃ between, first = .ok between ∧ change between = value := by
  cases first with
  | error fault => simp [Except.map]
  | ok between => simp [Except.map]

end TraceStore
