import Splite.Lib.Machine

/-!
# What is spent once

Some answers of a machine bar a key, some use one, some renew keys. A trace keeps to its bars when no
answer uses a key behind one that bars it, unless one between them renews it; and it spends each key once
when what uses a key bars it.

* `Machine.SpendingRule.outputs_barred`: a machine that knows which keys are barred, and uses those only
  that are not, keeps to its bars.
-/

/-- Between an answer that bars a key and one that uses it, and behind what the first of them bars, one
renews it. -/
def Barred {ω κ : Type} (bars : ω → κ → Prop) (uses : ω → Option κ) (renews : ω → κ → Prop)
    (trace : List ω) : Prop :=
  ∀ before o between o' after k, trace = before ++ o :: between ++ o' :: after →
    bars o k → uses o' = some k → ∃ r ∈ o :: between, renews r k

/-- Between any two answers that spend a key one renews it. -/
def SpentOnce {ω κ : Type} (spends : ω → Option κ) (renews : ω → κ → Prop) (trace : List ω) : Prop :=
  Barred (fun o k => spends o = some k) spends renews trace

namespace Machine

variable {σ ι ω κ : Type} {m : Machine σ ι ω} {I : σ → Prop} {G : σ → ι → Prop} {bars : ω → κ → Prop}
  {uses : ω → Option κ} {renews : ω → κ → Prop} {D : σ → κ → Prop} {s : σ} {es : List ι}

/-- Every step keeps `I` and answers at most once. A key that it uses was not done, and a key that it bars,
or that was done before, is done then or renewed. -/
structure SpendingRule (m : Machine σ ι ω) (I : σ → Prop) (G : σ → ι → Prop) (bars : ω → κ → Prop)
    (uses : ω → Option κ) (renews : ω → κ → Prop) (D : σ → κ → Prop) : Prop where
  step : ∀ s e, I s → G s e → I (m.step s e).1
  one : ∀ s e, I s → G s e → (m.step s e).2.length ≤ 1
  used : ∀ s e, I s → G s e → ∀ o ∈ (m.step s e).2, ∀ k, uses o = some k → ¬D s k
  done : ∀ s e, I s → G s e → ∀ k, D s k ∨ (∃ o ∈ (m.step s e).2, bars o k) →
    D (m.step s e).1 k ∨ ∃ o ∈ (m.step s e).2, renews o k

namespace SpendingRule

/-- A key that is done is renewed before it is used. -/
theorem renewed (hm : m.SpendingRule I G bars uses renews D) (h : I s) (hg : m.Every G s es) {k : κ}
    (hdone : D s k) {between after : List ω} {o : ω} (hes : m.outputs s es = between ++ o :: after)
    (ho : uses o = some k) : ∃ r ∈ between, renews r k := by
  induction es generalizing s between with
  | nil =>
    have hnil : between ++ o :: after = [] := hes.symm
    simp at hnil
  | cons e es ih =>
    have hone := hm.one s e h hg.1
    have hused := hm.used s e h hg.1
    have hnext := hm.done s e h hg.1 k (.inl hdone)
    rw [outputs] at hes
    rcases hout : (m.step s e).2 with _ | ⟨o₁, _ | ⟨o₂, rest⟩⟩
    · rw [hout] at hes hnext
      refine ih (hm.step s e h hg.1) hg.2 (hnext.resolve_right ?_) hes
      rintro ⟨_, hr, -⟩
      cases hr
    · rw [hout] at hes hnext hused
      cases between with
      | nil =>
        obtain ⟨rfl, -⟩ := List.cons.inj hes
        exact absurd hdone (hused o₁ (List.mem_singleton.mpr rfl) k ho)
      | cons o₂ between =>
        obtain ⟨rfl, hrest⟩ := List.cons.inj hes
        rcases hnext with hnext | ⟨r, hr, hrenews⟩
        · obtain ⟨r, hr, hrenews⟩ := ih (hm.step s e h hg.1) hg.2 hnext hrest
          exact ⟨r, List.mem_cons_of_mem _ hr, hrenews⟩
        · obtain rfl := List.mem_singleton.mp hr
          exact ⟨r, List.mem_cons_self, hrenews⟩
    · rw [hout] at hone
      simp at hone

/-- A guarded run keeps to its bars. -/
theorem outputs_barred (hm : m.SpendingRule I G bars uses renews D) (h : I s) (hg : m.Every G s es) :
    Barred bars uses renews (m.outputs s es) := by
  induction es generalizing s with
  | nil =>
    intro before o between o' after k htrace
    have hnil : before ++ o :: between ++ o' :: after = [] := htrace.symm
    simp at hnil
  | cons e es ih =>
    intro before o between o' after k htrace ho ho'
    have hone := hm.one s e h hg.1
    have hrest := ih (hm.step s e h hg.1) hg.2
    have hnext := hm.done s e h hg.1 k
    rw [outputs] at htrace
    rcases hout : (m.step s e).2 with _ | ⟨o₁, _ | ⟨o₂, rest⟩⟩
    · rw [hout] at htrace
      exact hrest before o between o' after k htrace ho ho'
    · rw [hout] at htrace hnext
      cases before with
      | nil =>
        obtain ⟨rfl, htail⟩ := List.cons.inj htrace
        rcases hnext (.inr ⟨o₁, List.mem_singleton.mpr rfl, ho⟩) with hdone | ⟨r, hr, hrenews⟩
        · obtain ⟨r, hr, hrenews⟩ := hm.renewed (hm.step s e h hg.1) hg.2 hdone htail ho'
          exact ⟨r, List.mem_cons_of_mem _ hr, hrenews⟩
        · obtain rfl := List.mem_singleton.mp hr
          exact ⟨r, List.mem_cons_self, hrenews⟩
      | cons b before =>
        obtain ⟨-, htail⟩ := List.cons.inj htrace
        exact hrest before o between o' after k htail ho ho'
    · rw [hout] at hone
      simp at hone

end SpendingRule

end Machine
