/-! Computations that may fail, where they succeed. -/

namespace SealedCatalog.Outcome

theorem bind_eq_ok_iff {first : Except ε α} {next : α → Except ε β} {result : β} :
    (first >>= next) = .ok result ↔
      ∃ between, first = .ok between ∧ next between = .ok result := by
  cases first with
  | error reason => simp [bind, Except.bind]
  | ok between => simp [bind, Except.bind]

theorem pure_eq_ok_iff {value result : α} :
    (pure value : Except ε α) = .ok result ↔ value = result := by
  simp [pure, Except.pure]

/-- A condition under which a computation fails at once. -/
theorem ite_throw_eq_ok_iff {condition : Prop} [Decidable condition] {reason : ε}
    {skipped : β → Except ε α} {rest : Except ε α} {result : α} :
    (if condition then (throw reason : Except ε β) >>= skipped else rest) = .ok result ↔
      ¬ condition ∧ rest = .ok result := by
  by_cases holds : condition <;>
    simp [holds, throw, throwThe, MonadExceptOf.throw, bind, Except.bind]

theorem mapError_ok (rename : ε → ε') (value : α) :
    (Except.ok value).mapError rename = .ok value := rfl

theorem mapError_error (rename : ε → ε') (reason : ε) :
    (Except.error reason : Except ε α).mapError rename = .error (rename reason) := rfl

theorem mapError_eq_ok_iff {outcome : Except ε α} {rename : ε → ε'} {result : α} :
    outcome.mapError rename = .ok result ↔ outcome = .ok result := by
  cases outcome with
  | error reason => simp [mapError_error]
  | ok value => simp [mapError_ok]

end SealedCatalog.Outcome
