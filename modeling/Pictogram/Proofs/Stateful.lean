/-!
# Computations with a state

What can be said of a sequence of computations from its result.
-/

namespace Pictogram
namespace Stateful

variable {ε σ α β : Type}

/-- Two computations succeed together if the second succeeds where the first has ended. -/
theorem bind_eq_ok
    {first : EStateM ε σ α}
    {next : α → EStateM ε σ β}
    {before after : σ}
    {result : β} :
    (first >>= next) before = .ok result after ↔
      ∃ value middle, first before = .ok value middle ∧ next value middle = .ok result after := by
  show EStateM.bind first next before = _ ↔ _
  unfold EStateM.bind
  cases first before <;> simp [and_assoc]

/-- Two computations fail together if the first fails, or the second where the first has ended. -/
theorem bind_eq_error
    {first : EStateM ε σ α}
    {next : α → EStateM ε σ β}
    {before after : σ}
    {error : ε} :
    (first >>= next) before = .error error after ↔
      first before = .error error after ∨
        ∃ value middle, first before = .ok value middle ∧
          next value middle = .error error after := by
  show EStateM.bind first next before = _ ↔ _
  unfold EStateM.bind
  cases first before <;> simp [and_assoc]

theorem pure_eq_ok {value result : α} {before after : σ} :
    (pure value : EStateM ε σ α) before = .ok result after ↔
      value = result ∧ before = after := by
  show EStateM.Result.ok value before = _ ↔ _
  simp

theorem throw_ne_ok {error : ε} {before after : σ} {result : α} :
    (throw error : EStateM ε σ α) before ≠ .ok result after := by
  show EStateM.Result.error error before ≠ _
  simp

theorem get_eq_ok {state before after : σ} :
    (get : EStateM ε σ σ) before = .ok state after ↔ before = state ∧ before = after := by
  show EStateM.Result.ok before before = _ ↔ _
  simp

end Stateful
end Pictogram
