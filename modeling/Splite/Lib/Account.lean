import Mathlib.Tactic
import Mathlib.Algebra.Order.Group.Defs
import Mathlib.Logic.Relation

/-!
# Accounts that are paid up to what is due

An account is opened with an amount due. It is credited up to that amount, never beyond; what is
due may change while nothing says that it is final; and it ends closed or void.

* `Account.Step`: what may happen to an account, one thing at a time.
* `Account.Step.sound`, `Account.Run.sound`: a sound account stays sound.
* `Account.Run.paid_le`: nothing takes a credit back.
-/

namespace Account

/-- Whether an account takes money, and what it came to if it does not. -/
inductive Status where
  | open
  | closed
  | void
  deriving DecidableEq, Repr

end Account

/-- What an account owes, what was paid into it, and what its owner gave up. -/
structure Account (M : Type) where
  status : Account.Status
  due : M
  paid : M
  forgiven : M

namespace Account

variable {M : Type} [AddCommGroup M] [LinearOrder M]

/-- What may happen to an open account. -/
inductive Step : Account M → Account M → Prop
  /-- A payment; the account closes with the last of what is due. -/
  | credit (a : Account M) (amount : M) (hpos : 0 < amount) (hopen : a.status = .open)
      (hle : a.paid + amount ≤ a.due) :
      Step a { a with
        paid := a.paid + amount
        status := if a.paid + amount = a.due then .closed else .open }
  /-- A new amount due, which what is paid already does not exceed. -/
  | reprice (a : Account M) (due : M) (hopen : a.status = .open) (hle : a.paid ≤ due) :
      Step a { a with due }
  /-- The rest is given up. -/
  | settle (a : Account M) (hopen : a.status = .open) :
      Step a { a with status := .closed, forgiven := a.forgiven + (a.due - a.paid) }
  /-- Nothing was paid, and nothing will be. -/
  | cancel (a : Account M) (hopen : a.status = .open) (hzero : a.paid = 0) :
      Step a { a with status := .void }

/-- What every account satisfies that was opened with nothing paid and nothing given up. -/
structure Sound (a : Account M) : Prop where
  paid_nonneg : 0 ≤ a.paid
  paid_le : a.paid ≤ a.due
  open_forgiven : a.status = .open → a.forgiven = 0
  closed_balance : a.status = .closed → a.paid + a.forgiven = a.due
  void_paid : a.status = .void → a.paid = 0

/-- Any number of steps. -/
abbrev Run : Account M → Account M → Prop := Relation.ReflTransGen Step

variable {a b : Account M}

theorem sound_of_open {due : M} (h : 0 ≤ due) : Sound ⟨.open, due, 0, 0⟩ :=
  ⟨le_rfl, h, fun _ => rfl, nofun, nofun⟩

variable [IsOrderedAddMonoid M]

theorem Step.sound (h : Step a b) (ha : Sound a) : Sound b := by
  cases h with
  | credit amount hpos hopen hle =>
    have h0 := ha.open_forgiven hopen
    refine ⟨add_nonneg ha.paid_nonneg hpos.le, hle, fun _ => h0, fun hc => ?_, fun hv => ?_⟩
    · -- It closes on equality and in no other case.
      by_cases he : a.paid + amount = a.due
      · rw [h0, add_zero, he]
      · simp [he] at hc
    · exact absurd hv (by split <;> simp)
  | reprice due hopen hle =>
    exact ⟨ha.paid_nonneg, hle, ha.open_forgiven, by simp [hopen], ha.void_paid⟩
  | settle hopen =>
    exact ⟨ha.paid_nonneg, ha.paid_le, nofun, fun _ => by simp [ha.open_forgiven hopen], nofun⟩
  | cancel hopen hzero =>
    exact ⟨ha.paid_nonneg, ha.paid_le, nofun, nofun, fun _ => hzero⟩

theorem Run.sound (h : Run a b) (ha : Sound a) : Sound b := by
  induction h with
  | refl => exact ha
  | tail _ hs ih => exact hs.sound ih

theorem Step.paid_le (h : Step a b) : a.paid ≤ b.paid := by
  cases h with
  | credit amount hpos hopen hle => exact le_add_of_nonneg_right hpos.le
  | reprice due hopen hle => exact le_rfl
  | settle hopen => exact le_rfl
  | cancel hopen hzero => exact le_rfl

theorem Run.paid_le (h : Run a b) : a.paid ≤ b.paid := by
  induction h with
  | refl => exact le_rfl
  | tail _ hs ih => exact ih.trans hs.paid_le

end Account
