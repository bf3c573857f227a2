import Mathlib.Logic.Basic

/-!
# Functions that change a state and may throw

`EStateM ε σ` is the meaning of code whose exceptions do not undo what was done before
they were thrown: a function ends with a value or an exception, and in a state in
either case.

Two things are said about such functions.  `bind_eq_ok` takes a sequence apart that
went through.  `Keeps R` says that the state a function ends in, however it ends, is
related to the one it began in; for a preorder this is closed under everything that
functions are made of.
-/

namespace Throwing

open EStateM (Result)

universe u

variable {ε σ α β : Type u}

/-- The state a function ends in. -/
def final : Result ε σ α → σ
  | .ok _ s => s
  | .error _ s => s

/-- A sequence whose first part goes through is what its second part does. -/
theorem bind_of_ok {x : EStateM ε σ α} {s t : σ} {a : α} (h : x s = .ok a t)
    (f : α → EStateM ε σ β) : (x >>= f) s = f a t := by
  change EStateM.bind x f s = _
  rw [EStateM.bind, h]

/-- A sequence whose first part throws is what the first part does. -/
theorem bind_of_error {x : EStateM ε σ α} {s t : σ} {e : ε} (h : x s = .error e t)
    (f : α → EStateM ε σ β) : (x >>= f) s = .error e t := by
  change EStateM.bind x f s = _
  rw [EStateM.bind, h]

/-- What is caught changes nothing of the state. -/
theorem tryCatch_apply (x : EStateM ε σ α) (handle : ε → EStateM ε σ α) (s : σ) :
    tryCatch x handle s =
      match x s with
      | .ok a t => .ok a t
      | .error e t => handle e t := by
  change EStateM.tryCatch x handle s = _
  delta EStateM.tryCatch
  cases x s <;> rfl

/-- What is caught is what one state makes of a function. -/
theorem tryCatch_congr {x y : EStateM ε σ α} {s : σ} (h : x s = y s)
    (handle : ε → EStateM ε σ α) : tryCatch x handle s = tryCatch y handle s := by
  rw [tryCatch_apply, tryCatch_apply, h]

/-- A sequence goes through if both its parts do. -/
theorem bind_eq_ok {x : EStateM ε σ α} {f : α → EStateM ε σ β} {s u : σ} {b : β}
    (h : (x >>= f) s = .ok b u) : ∃ a t, x s = .ok a t ∧ f a t = .ok b u := by
  cases hx : x s with
  | ok a t => exact ⟨a, t, rfl, (bind_of_ok hx f).symm.trans h⟩
  | error e t => cases (bind_of_error hx f).symm.trans h

theorem tryCatch_of_ok {x : EStateM ε σ α} {s t : σ} {a : α} (h : x s = .ok a t)
    (handle : ε → EStateM ε σ α) : tryCatch x handle s = .ok a t := by
  rw [tryCatch_apply, h]

theorem tryCatch_of_error {x : EStateM ε σ α} {s t : σ} {e : ε} (h : x s = .error e t)
    (handle : ε → EStateM ε σ α) : tryCatch x handle s = handle e t := by
  rw [tryCatch_apply, h]

/-- However the function ends, the state it ends in is related to the one it began in. -/
def Keeps (R : σ → σ → Prop) (x : EStateM ε σ α) : Prop := ∀ s, R s (final (x s))

namespace Keeps

variable {R : σ → σ → Prop} {x : EStateM ε σ α} {f : α → EStateM ε σ β}

theorem bind (htrans : ∀ s t u, R s t → R t u → R s u) (hx : Keeps R x) (hf : ∀ a, Keeps R (f a)) :
    Keeps R (x >>= f) := by
  intro s
  have hfirst := hx s
  cases h : x s with
  | ok a t =>
      rw [bind_of_ok h]
      rw [h] at hfirst
      exact htrans s t _ hfirst (hf a t)
  | error e t =>
      rw [bind_of_error h]
      rw [h] at hfirst
      exact hfirst

end Keeps

end Throwing
