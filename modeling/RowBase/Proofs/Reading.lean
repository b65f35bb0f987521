namespace RowBase

variable {σ ε α β : Type}

theorem StateT.bind_eq_ok_iff {p : StateT σ (Except ε) α} {f : α → StateT σ (Except ε) β} {s s' : σ} {b : β} :
    (p >>= f) s = .ok (b, s') ↔ ∃ a mid, p s = .ok (a, mid) ∧ f a mid = .ok (b, s') := by
  simp only [bind, StateT.bind, Except.bind]
  cases first : p s with
  | error e => simp
  | ok as =>
    rcases as with ⟨a, mid⟩
    constructor
    · exact fun second => ⟨a, mid, rfl, second⟩
    · intro h
      rcases h with ⟨_, _, ⟨⟩, second⟩
      exact second

theorem StateT.bind_of_ok {p : StateT σ (Except ε) α} (f : α → StateT σ (Except ε) β) {s mid : σ} {a : α}
    (first : p s = .ok (a, mid)) : (p >>= f) s = f a mid := by
  simp only [bind, StateT.bind, Except.bind, first]

theorem StateT.bind_eq_error_iff {p : StateT σ (Except ε) α} {f : α → StateT σ (Except ε) β} {s : σ} {e : ε} :
    (p >>= f) s = .error e ↔ p s = .error e ∨ ∃ a mid, p s = .ok (a, mid) ∧ f a mid = .error e := by
  simp only [bind, StateT.bind, Except.bind]
  cases first : p s with
  | error e' => simp
  | ok as =>
    rcases as with ⟨a, mid⟩
    constructor
    · exact fun second => .inr ⟨a, mid, rfl, second⟩
    · intro h
      rcases h with ⟨⟨⟩⟩ | ⟨_, _, ⟨⟩, second⟩
      exact second

theorem StateT.pure_eq_ok_iff {a b : α} {s s' : σ} :
    (pure a : StateT σ (Except ε) α) s = .ok (b, s') ↔ b = a ∧ s' = s := by
  constructor
  · intro h
    have h : Except.ok (a, s) = Except.ok (b, s') := h
    cases h
    exact ⟨rfl, rfl⟩
  · intro h
    rcases h with ⟨rfl, rfl⟩
    rfl

theorem StateT.bind_pure_eq_ok_iff {p : StateT σ (Except ε) α} {f : α → β} {s s' : σ} {b : β} :
    (p >>= fun a => pure (f a)) s = .ok (b, s') ↔ ∃ a, p s = .ok (a, s') ∧ b = f a := by
  simp only [StateT.bind_eq_ok_iff, StateT.pure_eq_ok_iff]
  constructor
  · intro h
    rcases h with ⟨a, _, read, rfl, rfl⟩
    exact ⟨a, read, rfl⟩
  · intro h
    rcases h with ⟨a, read, rfl⟩
    exact ⟨a, s', read, rfl, rfl⟩

theorem Except.bind_eq_ok_iff {p : Except ε α} {f : α → Except ε β} {b : β} :
    p >>= f = .ok b ↔ ∃ a, p = .ok a ∧ f a = .ok b := by
  cases p <;> simp [bind, Except.bind]

theorem Except.bind_eq_error_iff {p : Except ε α} {f : α → Except ε β} {e : ε} :
    p >>= f = .error e ↔ p = .error e ∨ ∃ a, p = .ok a ∧ f a = .error e := by
  cases p <;> simp [bind, Except.bind]

theorem Except.map_eq_error_iff {f : α → β} {r : Except ε α} {e : ε} :
    r.map f = .error e ↔ r = .error e := by
  cases r <;> simp [Except.map]

section Runs

variable {p : α → Bool} {as rest : List α}

theorem takeWhile_of_stops (inside : ∀ a ∈ as, p a = true) (stops : ∀ a ∈ rest.head?, p a = false) :
    (as ++ rest).takeWhile p = as := by
  rw [List.takeWhile_append_of_pos inside]
  cases rest with
  | nil => simp
  | cons a rest => simp [stops a (by simp)]

theorem dropWhile_of_stops (inside : ∀ a ∈ as, p a = true) (stops : ∀ a ∈ rest.head?, p a = false) :
    (as ++ rest).dropWhile p = rest := by
  rw [List.dropWhile_append_of_pos inside]
  cases rest with
  | nil => simp
  | cons a rest => simp [stops a (by simp)]

theorem stops_dropWhile (p : α → Bool) (as : List α) : ∀ a ∈ (as.dropWhile p).head?, p a = false := by
  intro a member
  have := List.head?_dropWhile_not p as
  rw [Option.mem_def.mp member] at this
  simpa using this

end Runs

end RowBase
