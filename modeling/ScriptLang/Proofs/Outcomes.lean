import Mathlib.Data.List.Forall2

/-!
# Computations that may fail

What the outcome of a sequence of computations says of its steps: all succeed if it does, and if it
fails the error is that of one of them.
-/

namespace ScriptLang

variable {ε α β : Type}

theorem exists_of_bind_eq_ok {x : Except ε α} {f : α → Except ε β} {b : β}
    (h : x >>= f = .ok b) : ∃ a, x = .ok a ∧ f a = .ok b := by
  cases x with
  | error e => cases h
  | ok a => exact ⟨a, rfl, h⟩

theorem of_bind_eq_error {x : Except ε α} {f : α → Except ε β} {e : ε}
    (h : x >>= f = .error e) : x = .error e ∨ ∃ a, x = .ok a ∧ f a = .error e := by
  cases x with
  | error e' =>
    cases h
    exact .inl rfl
  | ok a => exact .inr ⟨a, rfl, h⟩

theorem forall₂_of_mapM_eq_ok {f : α → Except ε β} : ∀ {xs : List α} {ys : List β},
    xs.mapM f = .ok ys → List.Forall₂ (fun x y => f x = .ok y) xs ys
  | [], _, h => by
    cases h
    exact .nil
  | x :: xs, _, h => by
    rw [List.mapM_cons] at h
    obtain ⟨y, first, h⟩ := exists_of_bind_eq_ok h
    obtain ⟨ys, others, h⟩ := exists_of_bind_eq_ok h
    cases h
    exact .cons first (forall₂_of_mapM_eq_ok others)

theorem exists_of_mapM_eq_error {f : α → Except ε β} {e : ε} : ∀ {xs : List α},
    xs.mapM f = .error e → ∃ x ∈ xs, f x = .error e
  | x :: xs, h => by
    rw [List.mapM_cons] at h
    rcases of_bind_eq_error h with first | ⟨y, -, h⟩
    · exact ⟨x, List.mem_cons_self, first⟩
    rcases of_bind_eq_error h with others | ⟨ys, -, h⟩
    · obtain ⟨x', mem, failed⟩ := exists_of_mapM_eq_error others
      exact ⟨x', List.mem_cons_of_mem x mem, failed⟩
    · cases h

end ScriptLang
