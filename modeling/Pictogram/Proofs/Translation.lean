/-!
# Computations with a state, translated

A computation on states of one kind can be followed by another on translated states, which
gives a translated result, or fails with a translated error.
-/

namespace Pictogram

/-- How the states and the errors of a computation appear in another one. -/
structure Translation (ε σ : Type) where
  /-- How a state appears. -/
  state : σ → σ
  /-- How an error appears. -/
  error : ε → ε

namespace Translation

variable {ε σ α β γ δ : Type} {translation : Translation ε σ}

/-- How a result appears. -/
def result (translation : Translation ε σ) (value : α → β) :
    EStateM.Result ε σ α → EStateM.Result ε σ β
  | .ok given state => .ok (value given) (translation.state state)
  | .error error state => .error (translation.error error) (translation.state state)

/-- On translated states the second computation does what the first one does. -/
def Carries
    (translation : Translation ε σ)
    (value : α → β)
    (first : EStateM ε σ α)
    (second : EStateM ε σ β) : Prop :=
  ∀ state, second (translation.state state) = translation.result value (first state)

namespace Carries

protected theorem pure {value : α → β} (given : α) :
    translation.Carries value (pure given) (pure (value given)) := fun _ => rfl

protected theorem throw {value : α → β} (error : ε) :
    translation.Carries value (throw error) (throw (translation.error error)) := fun _ => rfl

protected theorem get : translation.Carries translation.state get get := fun _ => rfl

protected theorem modify
    {change changed : σ → σ}
    (commutes : ∀ state, changed (translation.state state) = translation.state (change state)) :
    translation.Carries id (modify change) (modify changed) := fun state =>
  congrArg (EStateM.Result.ok ()) (commutes state)

/-- Computations that are carried over are carried over one after the other. -/
protected theorem bind
    {value : α → β}
    {later : γ → δ}
    {first : EStateM ε σ α}
    {second : EStateM ε σ β}
    {next : α → EStateM ε σ γ}
    {follow : β → EStateM ε σ δ}
    (carries : translation.Carries value first second)
    (nextCarries : ∀ given, translation.Carries later (next given) (follow (value given))) :
    translation.Carries later (first >>= next) (second >>= follow) := by
  intro state
  show EStateM.bind second follow (translation.state state) =
    translation.result later (EStateM.bind first next state)
  unfold EStateM.bind
  rw [carries state]
  cases first state with
  | ok given middle => exact nextCarries given middle
  | error error middle => rfl

protected theorem ite
    {condition : Prop}
    [Decidable condition]
    {value : α → β}
    {first otherwise : EStateM ε σ α}
    {second alternate : EStateM ε σ β}
    (carries : translation.Carries value first second)
    (otherwiseCarries : translation.Carries value otherwise alternate) :
    translation.Carries value (if condition then first else otherwise)
      (if condition then second else alternate) := by
  split
  · exact carries
  · exact otherwiseCarries

end Carries
end Translation
end Pictogram
