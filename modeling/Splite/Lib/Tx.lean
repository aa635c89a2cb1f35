import Mathlib.Tactic

/-!
# Database transactions

`Tx ε σ α` is a computation over a state of type `σ` that may fail with an error, and then leaves
what it has written so far. `withTransaction` undoes that on failure, except for what the state's
`Rollback` instance says is written outside of the transaction.

* `Tx.bind_ok`, `Tx.bind_error`: inversion of a chain of two computations.
* `Tx.withTransaction_ok`, `Tx.withTransaction_error`: a transaction that commits, one that rolls
  back.
* `Tx.Atomic`: a computation that leaves no trace when it fails, and how such computations compose.
* `Tx.Keeps`: a relation that holds between the states before and after every computation that ends
  well, with a rule for each way of composing computations.
-/

/-- A computation over `σ` that may fail; the writes before a failure stay. -/
abbrev Tx (ε σ α : Type) := EStateM ε σ α

/-- What a failed transaction leaves of the state: `before` at its start, `after` at the failure. -/
class Rollback (σ : Type) where
  rollback : (before after : σ) → σ

namespace Tx

variable {ε σ α β : Type}

/-- The state in which a computation ends, well or not. -/
def exec (x : Tx ε σ α) (s : σ) : σ :=
  match x.run s with
  | .ok _ s' => s'
  | .error _ s' => s'

/-- `BEGIN`, the callback, `COMMIT`; `ROLLBACK` when the callback throws. -/
def withTransaction [Rollback σ] (fn : Tx ε σ α) : Tx ε σ α := fun s =>
  match fn.run s with
  | .ok a s' => .ok a s'
  | .error e s' => .error e (Rollback.rollback s s')

/-- `SAVEPOINT`, the statements, and `ROLLBACK TO SAVEPOINT` when one throws: the failure is the
result, and the transaction goes on. -/
def savepoint [Rollback σ] (x : Tx ε σ α) : Tx ε σ (Except ε α) := fun s =>
  match x.run s with
  | .ok a s' => .ok (.ok a) s'
  | .error e s' => .ok (.error e) (Rollback.rollback s s')

/-- `if (!cond) throw err`. -/
def require (cond : Prop) [Decidable cond] (err : ε) : Tx ε σ Unit :=
  if cond then pure () else throw err

/-- The row that a query returned, or the error of its absence. -/
def orThrow (row : Option α) (err : ε) : Tx ε σ α :=
  match row with
  | some a => pure a
  | none => throw err

/-- The error of a violated constraint, if there is one. -/
def forbid (violation : Option β) (err : β → ε) : Tx ε σ Unit :=
  match violation with
  | some b => throw (err b)
  | none => pure ()

/-- The value of a computation without a database. -/
def ofExcept (x : Except ε α) : Tx ε σ α :=
  match x with
  | .ok a => pure a
  | .error e => throw e

/-- `catch (err) { throw f(err) }`. -/
def mapError (f : ε → ε) (x : Tx ε σ α) : Tx ε σ α := fun s =>
  match x.run s with
  | .ok a s' => .ok a s'
  | .error e s' => .error (f e) s'

/-- `.catch(handler)`: the handler goes on from what the failure left. -/
def rescue (x : Tx ε σ α) (handler : ε → Tx ε σ α) : Tx ε σ α := fun s =>
  match x.run s with
  | .ok a s' => .ok a s'
  | .error e s' => (handler e).run s'

/-- A computation over a part of the state. -/
def zoom {τ : Type} (view : σ → τ) (put : τ → σ → σ) (x : Tx ε τ α) : Tx ε σ α := fun s =>
  match x.run (view s) with
  | .ok a t => .ok a (put t s)
  | .error e t => .error e (put t s)

/-! ## Inversion -/

section Inversion

variable {s s' : σ} {a : α} {b : β} {e : ε}

theorem bind_ok {x : Tx ε σ α} {f : α → Tx ε σ β} :
    (x >>= f).run s = .ok b s' ↔ ∃ a s₁, x.run s = .ok a s₁ ∧ (f a).run s₁ = .ok b s' := by
  show EStateM.bind x f s = _ ↔ _
  unfold EStateM.bind EStateM.run
  cases x s <;> simp

theorem bind_error {x : Tx ε σ α} {f : α → Tx ε σ β} :
    (x >>= f).run s = .error e s' ↔
      x.run s = .error e s' ∨ ∃ a s₁, x.run s = .ok a s₁ ∧ (f a).run s₁ = .error e s' := by
  show EStateM.bind x f s = _ ↔ _
  unfold EStateM.bind EStateM.run
  cases x s <;> simp

/-- A first computation that ends well is followed by the second. -/
theorem bind_of_ok {x : Tx ε σ α} {f : α → Tx ε σ β} (h : x.run s = .ok a s') :
    (x >>= f).run s = (f a).run s' := by
  show EStateM.bind x f s = _
  unfold EStateM.run at h ⊢
  unfold EStateM.bind
  rw [h]

theorem bind_of_error {x : Tx ε σ α} {f : α → Tx ε σ β} (h : x.run s = .error e s') :
    (x >>= f).run s = .error e s' := by
  show EStateM.bind x f s = _
  unfold EStateM.run at h
  unfold EStateM.bind
  rw [h]

/-- Two computations that go on alike from what the first one answers are alike. -/
theorem bind_congr {x : Tx ε σ α} {f g : α → Tx ε σ β}
    (h : ∀ a s', x.run s = .ok a s' → (f a).run s' = (g a).run s') :
    (x >>= f).run s = (x >>= g).run s := by
  cases hx : x.run s with
  | ok a s' => rw [bind_of_ok hx, bind_of_ok hx, h a s' hx]
  | error e s' => rw [bind_of_error hx, bind_of_error hx]

@[simp] theorem run_pure : (pure a : Tx ε σ α).run s = .ok a s := rfl

@[simp] theorem run_throw : (throw e : Tx ε σ α).run s = .error e s := rfl

@[simp] theorem run_get : (get : Tx ε σ σ).run s = .ok s s := rfl

@[simp] theorem run_set : (set s' : Tx ε σ PUnit).run s = .ok ⟨⟩ s' := rfl

@[simp] theorem run_modify (f : σ → σ) : (modify f : Tx ε σ PUnit).run s = .ok ⟨⟩ (f s) := rfl

@[simp] theorem run_modifyGet (f : σ → α × σ) :
    (modifyGet f : Tx ε σ α).run s = .ok (f s).1 (f s).2 := rfl

theorem pure_ok {b' : α} : (pure a : Tx ε σ α).run s = .ok b' s' ↔ b' = a ∧ s' = s := by
  simp [eq_comm]

@[simp] theorem require_ok {c : Prop} [Decidable c] {u : Unit} :
    (require c e).run s = .ok u s' ↔ c ∧ s' = s := by
  unfold require
  by_cases hc : c <;> simp [hc, eq_comm]

/-- A check that is met changes nothing. -/
theorem require_pass {c : Prop} [Decidable c] (h : c) :
    (require c e).run s = .ok () s := require_ok.mpr ⟨h, rfl⟩

@[simp] theorem require_error {c : Prop} [Decidable c] {e' : ε} :
    (require c e).run s = .error e' s' ↔ ¬c ∧ e' = e ∧ s' = s := by
  unfold require
  by_cases hc : c <;> simp [hc, eq_comm]

@[simp] theorem orThrow_ok {row : Option α} :
    (orThrow row e).run s = .ok a s' ↔ row = some a ∧ s' = s := by
  cases row <;> simp [orThrow, eq_comm]

@[simp] theorem orThrow_error {row : Option α} {e' : ε} :
    (orThrow row e).run s = .error e' s' ↔ row = none ∧ e' = e ∧ s' = s := by
  cases row <;> simp [orThrow, eq_comm]

@[simp] theorem forbid_ok {violation : Option β} {err : β → ε} {u : Unit} :
    (forbid violation err).run s = .ok u s' ↔ violation = none ∧ s' = s := by
  cases violation <;> simp [forbid, eq_comm]

@[simp] theorem forbid_error {violation : Option β} {err : β → ε} :
    (forbid violation err).run s = .error e s' ↔ (∃ b, violation = some b ∧ err b = e) ∧ s' = s := by
  cases violation <;> simp [forbid, eq_comm]

@[simp] theorem ofExcept_ok {r : Except ε α} :
    (ofExcept r).run s = .ok a s' ↔ r = .ok a ∧ s' = s := by
  cases r <;> simp [ofExcept, eq_comm]

@[simp] theorem ofExcept_error {r : Except ε α} :
    (ofExcept r).run s = .error e s' ↔ r = .error e ∧ s' = s := by
  cases r <;> simp [ofExcept, eq_comm]

/-- A query in front of the rest, which starts where the query did. -/
theorem orThrow_bind_ok {row : Option α} {f : α → Tx ε σ β} :
    (orThrow row e >>= f).run s = .ok b s' ↔ ∃ a, row = some a ∧ (f a).run s = .ok b s' := by
  rw [bind_ok]
  constructor
  · rintro ⟨a, s₁, hrun, hf⟩
    obtain ⟨hrow, rfl⟩ := orThrow_ok.mp hrun
    exact ⟨a, hrow, hf⟩
  · rintro ⟨a, hrow, hf⟩
    exact ⟨a, s, orThrow_ok.mpr ⟨hrow, rfl⟩, hf⟩

theorem require_bind_ok {c : Prop} [Decidable c] {f : Unit → Tx ε σ β} :
    (require c e >>= f).run s = .ok b s' ↔ c ∧ (f ()).run s = .ok b s' := by
  rw [bind_ok]
  constructor
  · rintro ⟨a, s₁, hrun, hf⟩
    obtain ⟨hc, rfl⟩ := require_ok.mp hrun
    exact ⟨hc, hf⟩
  · rintro ⟨hc, hf⟩
    exact ⟨(), s, require_ok.mpr ⟨hc, rfl⟩, hf⟩

theorem ofExcept_bind_ok {r : Except ε α} {f : α → Tx ε σ β} :
    (ofExcept r >>= f).run s = .ok b s' ↔ ∃ a, r = .ok a ∧ (f a).run s = .ok b s' := by
  rw [bind_ok]
  constructor
  · rintro ⟨a, s₁, hrun, hf⟩
    obtain ⟨hr, rfl⟩ := ofExcept_ok.mp hrun
    exact ⟨a, hr, hf⟩
  · rintro ⟨a, hr, hf⟩
    exact ⟨a, s, ofExcept_ok.mpr ⟨hr, rfl⟩, hf⟩

theorem zoom_ok {τ : Type} {view : σ → τ} {put : τ → σ → σ} {x : Tx ε τ α} :
    (zoom view put x).run s = .ok a s' ↔ ∃ t, x.run (view s) = .ok a t ∧ s' = put t s := by
  show zoom view put x s = _ ↔ _
  unfold zoom
  cases x.run (view s) <;> simp [eq_comm]

@[simp] theorem mapError_ok {x : Tx ε σ α} {f : ε → ε} :
    (mapError f x).run s = .ok a s' ↔ x.run s = .ok a s' := by
  show mapError f x s = _ ↔ _
  unfold mapError
  cases x.run s <;> simp

theorem rescue_ok {x : Tx ε σ α} {handler : ε → Tx ε σ α} :
    (rescue x handler).run s = .ok a s' ↔
      x.run s = .ok a s' ∨ ∃ e s₁, x.run s = .error e s₁ ∧ (handler e).run s₁ = .ok a s' := by
  show rescue x handler s = _ ↔ _
  unfold rescue
  cases x.run s with
  | ok b s₁ => simp
  | error e s₁ =>
    simp only [reduceCtorEq, EStateM.Result.error.injEq, false_or]
    exact ⟨fun h => ⟨e, s₁, ⟨rfl, rfl⟩, h⟩, fun ⟨_, _, ⟨he, hs⟩, h⟩ => by rw [he, hs]; exact h⟩

theorem rescue_error {x : Tx ε σ α} {handler : ε → Tx ε σ α} :
    (rescue x handler).run s = .error e s' ↔
      ∃ e₀ s₁, x.run s = .error e₀ s₁ ∧ (handler e₀).run s₁ = .error e s' := by
  show rescue x handler s = _ ↔ _
  unfold rescue
  cases x.run s with
  | ok b s₁ => simp
  | error e₁ s₁ =>
    simp only [EStateM.Result.error.injEq]
    exact ⟨fun h => ⟨e₁, s₁, ⟨rfl, rfl⟩, h⟩, fun ⟨_, _, ⟨he, hs⟩, h⟩ => by rw [he, hs]; exact h⟩

theorem mapError_error {x : Tx ε σ α} {f : ε → ε} :
    (mapError f x).run s = .error e s' ↔ ∃ e₀, x.run s = .error e₀ s' ∧ f e₀ = e := by
  show mapError f x s = _ ↔ _
  unfold mapError
  cases x.run s <;> simp [and_comm]

variable [Rollback σ]

@[simp] theorem withTransaction_ok {x : Tx ε σ α} :
    (withTransaction x).run s = .ok a s' ↔ x.run s = .ok a s' := by
  show withTransaction x s = _ ↔ _
  unfold withTransaction
  cases x.run s <;> simp

theorem withTransaction_congr {x y : Tx ε σ α} (h : x.run s = y.run s) :
    (withTransaction x).run s = (withTransaction y).run s := by
  show withTransaction x s = withTransaction y s
  unfold withTransaction
  rw [h]

/-- A transaction that throws leaves the state of its start, but for what is outside of it. -/
theorem withTransaction_error {x : Tx ε σ α} :
    (withTransaction x).run s = .error e s' ↔
      ∃ s₁, x.run s = .error e s₁ ∧ s' = Rollback.rollback s s₁ := by
  show withTransaction x s = _ ↔ _
  unfold withTransaction
  cases x.run s with
  | ok a s₁ => simp
  | error e₁ s₁ => simp [eq_comm]

/-- After a `SAVEPOINT` either the statements ended well, or they failed and left nothing but what
a rollback leaves. -/
theorem savepoint_ok {x : Tx ε σ α} {r : Except ε α} :
    (savepoint x).run s = .ok r s' ↔
      (∃ a, r = .ok a ∧ x.run s = .ok a s') ∨
      ∃ e s₁, r = .error e ∧ x.run s = .error e s₁ ∧ s' = Rollback.rollback s s₁ := by
  show savepoint x s = _ ↔ _
  unfold savepoint
  cases x.run s with
  | ok a s₁ => simp [eq_comm]
  | error e s₁ =>
    simp only [EStateM.Result.ok.injEq, reduceCtorEq, and_false, exists_false, false_or,
      EStateM.Result.error.injEq]
    constructor
    · rintro ⟨rfl, rfl⟩
      exact ⟨e, s₁, rfl, ⟨rfl, rfl⟩, rfl⟩
    · rintro ⟨_, _, rfl, ⟨rfl, rfl⟩, rfl⟩
      exact ⟨rfl, rfl⟩

end Inversion

/-! ## All or nothing -/

theorem exec_of_ok {x : Tx ε σ α} {s s' : σ} {a : α} (h : x.run s = .ok a s') : x.exec s = s' := by
  simp [exec, h]

theorem exec_of_error {x : Tx ε σ α} {s s' : σ} {e : ε} (h : x.run s = .error e s') :
    x.exec s = s' := by
  simp [exec, h]

/-- A failure of `x` leaves the state as it was. -/
def Atomic (x : Tx ε σ α) : Prop := ∀ s e s', x.run s = .error e s' → s' = s

theorem Atomic.exec_of_error {x : Tx ε σ α} {s s' : σ} {e : ε} (hx : Atomic x)
    (h : x.run s = .error e s') : x.exec s = s := by
  rw [Tx.exec_of_error h, hx s e s' h]

theorem atomic_pure (a : α) : Atomic (pure a : Tx ε σ α) := fun _ _ _ h => by simp at h

theorem atomic_throw (e : ε) : Atomic (throw e : Tx ε σ α) := fun _ _ _ h => by
  obtain ⟨-, rfl⟩ := by simpa using h
  rfl

theorem atomic_withTransaction [Rollback σ] (x : Tx ε σ α)
    (hr : ∀ s s' : σ, Rollback.rollback s s' = s) : Atomic (withTransaction x) := fun s e s' h => by
  obtain ⟨s₁, -, rfl⟩ := withTransaction_error.mp h
  exact hr s s₁

theorem atomic_orThrow_bind {row : Option α} {err : ε} {f : α → Tx ε σ β}
    (hf : ∀ a, Atomic (f a)) : Atomic (orThrow row err >>= f) := fun s e s' h => by
  rcases bind_error.mp h with h | ⟨a, s₁, h, hfa⟩
  · exact (orThrow_error.mp h).2.2
  · obtain ⟨-, rfl⟩ := orThrow_ok.mp h
    exact hf a _ e s' hfa

theorem atomic_require_bind {c : Prop} [Decidable c] {err : ε} {f : Unit → Tx ε σ β}
    (hf : Atomic (f ())) : Atomic (require c err >>= f) := fun s e s' h => by
  rcases bind_error.mp h with h | ⟨a, s₁, h, hfa⟩
  · exact (require_error.mp h).2.2
  · obtain ⟨-, rfl⟩ := require_ok.mp h
    exact hf _ e s' hfa

theorem atomic_mapError {x : Tx ε σ α} {f : ε → ε} (hx : Atomic x) : Atomic (mapError f x) :=
  fun s _ s' h => by
    obtain ⟨e₀, h, -⟩ := mapError_error.mp h
    exact hx s e₀ s' h

theorem atomic_rescue {x : Tx ε σ α} {handler : ε → Tx ε σ α} (hx : Atomic x)
    (hh : ∀ e, Atomic (handler e)) : Atomic (rescue x handler) := fun s e s' h => by
  obtain ⟨e₀, s₁, hfail, h⟩ := rescue_error.mp h
  rw [hh e₀ s₁ e s' h, hx s e₀ s₁ hfail]

/-! ## Relations between before and after -/

/-- Whenever `x` ends well, it leaves a state that is related to the one that it found. -/
def Keeps (R : σ → σ → Prop) (x : Tx ε σ α) : Prop := ∀ s a s', x.run s = .ok a s' → R s s'

section Keeps

variable {R : σ → σ → Prop} {x : Tx ε σ α} {f : α → Tx ε σ β}

theorem Keeps.mono {R' : σ → σ → Prop} (hR : ∀ s s', R s s' → R' s s') (hx : Keeps R x) :
    Keeps R' x := fun s a s' h => hR s s' (hx s a s' h)

theorem Keeps.pure [Std.Refl R] (a : α) : Keeps R (Pure.pure a : Tx ε σ α) := fun s b s' h => by
  obtain ⟨-, rfl⟩ := pure_ok.mp h
  exact refl_of R s'

theorem Keeps.get [Std.Refl R] : Keeps R (MonadState.get : Tx ε σ σ) := fun s a s' h => by
  obtain ⟨-, rfl⟩ : s = a ∧ s = s' := by simpa using h
  exact refl_of R s

theorem Keeps.throw (e : ε) : Keeps R (MonadExcept.throw e : Tx ε σ α) := fun s a s' h => by
  simp at h

theorem Keeps.require [Std.Refl R] {c : Prop} [Decidable c] {e : ε} :
    Keeps R (Tx.require c e) := fun s a s' h => by
  obtain ⟨-, rfl⟩ := require_ok.mp h
  exact refl_of R s'

theorem Keeps.orThrow [Std.Refl R] {row : Option α} {e : ε} :
    Keeps R (Tx.orThrow row e) := fun s a s' h => by
  obtain ⟨-, rfl⟩ := orThrow_ok.mp h
  exact refl_of R s'

theorem Keeps.bind [IsTrans σ R] (hx : Keeps R x) (hf : ∀ a, Keeps R (f a)) : Keeps R (x >>= f) :=
  fun s b s' h => by
    obtain ⟨a, s₁, hxs, hfs⟩ := bind_ok.mp h
    exact trans_of R (hx s a s₁ hxs) (hf a s₁ b s' hfs)

/-- What follows a read may use that it starts from the state that was read. -/
theorem Keeps.get_bind {f : σ → Tx ε σ β} (hf : ∀ s b s', (f s).run s = .ok b s' → R s s') :
    Keeps R (MonadState.get >>= f) := fun s b s' h => by
  rw [bind_of_ok run_get] at h
  exact hf s b s' h

theorem Keeps.mapError {g : ε → ε} (hx : Keeps R x) : Keeps R (Tx.mapError g x) := fun s a s' h =>
  hx s a s' (mapError_ok.mp h)

theorem Keeps.withTransaction [Rollback σ] (hx : Keeps R x) : Keeps R (Tx.withTransaction x) :=
  fun s a s' h => hx s a s' (withTransaction_ok.mp h)

/-- A transaction whose failure is handled by computations that keep `R` too. -/
theorem Keeps.rescue {handler : ε → Tx ε σ α} (hx : Keeps R x) (hatomic : Atomic x)
    (hh : ∀ e, Keeps R (handler e)) : Keeps R (Tx.rescue x handler) := fun s a s' h => by
  rcases rescue_ok.mp h with hok | ⟨e, s₁, hfail, hhandled⟩
  · exact hx s a s' hok
  · rw [hatomic s e s₁ hfail] at hhandled
    exact hh e s a s' hhandled

end Keeps

end Tx
