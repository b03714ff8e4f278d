namespace CertRotation

variable {ε ε' α β : Type}

theorem bind_eq_ok_iff {step : Except ε α} {next : α → Except ε β} {result : β} :
    step >>= next = .ok result ↔ ∃ value, step = .ok value ∧ next value = .ok result := by
  cases step with
  | error failure =>
      constructor
      · intro h
        cases h
      · rintro ⟨_, h, -⟩
        cases h
  | ok value =>
      constructor
      · intro h
        exact ⟨value, rfl, h⟩
      · rintro ⟨_, heq, h⟩
        cases heq
        exact h

theorem toOption_eq_some_iff {result : Except ε α} {value : α} :
    result.toOption = some value ↔ result = .ok value := by
  cases result with
  | error failure => simp [Except.toOption]
  | ok found => simp [Except.toOption]

theorem exists_ok_of_toBool {result : Except ε α} (h : result.toBool = true) :
    ∃ value, result = .ok value := by
  cases result with
  | error failure => cases h
  | ok value => exact ⟨value, rfl⟩

@[simp] theorem ok_bind (value : α) (next : α → Except ε β) :
    Except.ok value >>= next = next value := rfl

@[simp] theorem error_bind (failure : ε) (next : α → Except ε β) :
    Except.error failure >>= next = .error failure := rfl

theorem bind_eq_error_iff {step : Except ε α} {next : α → Except ε β} {failure : ε} :
    step >>= next = .error failure ↔
      step = .error failure ∨ ∃ value, step = .ok value ∧ next value = .error failure := by
  cases step with
  | error found =>
      constructor
      · intro h
        cases h
        exact .inl rfl
      · rintro (h | ⟨_, h, -⟩)
        · cases h
          rfl
        · cases h
  | ok value =>
      constructor
      · intro h
        exact .inr ⟨value, rfl, h⟩
      · rintro (h | ⟨_, heq, h⟩)
        · cases h
        · cases heq
          exact h

@[simp] theorem mapError_ok (change : ε → ε') (value : α) :
    (Except.ok value : Except ε α).mapError change = .ok value := rfl

@[simp] theorem mapError_error (change : ε → ε') (failure : ε) :
    (Except.error failure : Except ε α).mapError change = .error (change failure) := rfl

@[simp] theorem throw_ne_ok (failure : ε) (value : α) :
    (throw failure : Except ε α) ≠ .ok value := by
  intro h
  cases h

@[simp] theorem throw_bind_ne_ok (failure : ε) (next : α → Except ε β) (value : β) :
    (throw failure : Except ε α) >>= next ≠ .ok value := by
  intro h
  cases h

@[simp] theorem pure_eq_ok_iff {value result : α} :
    (pure value : Except ε α) = .ok result ↔ value = result := by
  constructor
  · intro h
    cases h
    rfl
  · rintro rfl
    rfl

@[simp] theorem guard_bind_eq_ok_iff {guarded : Prop} [Decidable guarded] {failure : ε}
    {next : α → Except ε β} {rest : Except ε β} {result : β} :
    (if guarded then throw failure >>= next else rest) = .ok result ↔
      ¬guarded ∧ rest = .ok result := by
  split
  · rename_i h
    simp [h]
  · rename_i h
    simp [h]

end CertRotation
