import Splite.Lib.Interleave

/-!
# What sessions owe

A statement may leave something to be done that a later statement of the same session does. As long as
no session is broken off, what is owed is owed by one that runs.

* `Protocol.Owes`: what each statement has to meet for this.
* `Protocol.Owes.step`: then every move that breaks off no session keeps it.
-/

/-- No session is broken off. -/
def Move.isAbort {ι : Type} : Move ι → Bool
  | .abort _ => true
  | _ => false

namespace Protocol

variable {σ τ ι ω κ : Type}

/-- What is owed, `E`, is owed by a session that runs, `K`. -/
def Owed (E : σ → κ → Prop) (K : τ → κ → Prop) (w : Sessions σ τ) : Prop :=
  ∀ k, E w.committed k → ∃ r ∈ w.running, K r.state k

/-- A statement leaves nothing owed but what its session owes afterwards, or what was owed before by
another one. -/
structure Owes (p : Protocol σ τ ι ω) (C : σ → List τ → τ → Prop) (E : σ → κ → Prop)
    (K : τ → κ → Prop) : Prop where
  goes : ∀ s us t s' t' answer, C s us t → p.next s us t = .goes s' t' answer →
    ∀ k, E s' k → K t' k ∨ E s k ∧ ¬K t k
  ends : ∀ s us t s' answer, C s us t → p.next s us t = .ends s' answer →
    ∀ k, E s' k → E s k ∧ ¬K t k

variable {p : Protocol σ τ ι ω} {S : ι → Prop} {C : σ → List τ → τ → Prop} {E : σ → κ → Prop}
  {K : τ → κ → Prop}

theorem Owes.step (hp : p.Owes C E K) (w : Sessions σ τ) (m : Move ι) (h : Owed E K w)
    (hallowed : Allowed S C w m) (habort : m.isAbort = false) :
    Owed E K (p.machine.step w m).1 := by
  change Owed E K (p.step w m).1
  cases m with
  | abort id => cases habort
  | start id input =>
    unfold Protocol.step
    dsimp only
    split
    · rename_i running hins
      intro k hk
      obtain ⟨r, hr, hK⟩ := h k hk
      exact ⟨r, (Table.mem_insert? hins).mpr (.inl hr), hK⟩
    · exact h
  | go id =>
    unfold Protocol.step
    dsimp only
    split
    · exact h
    · rename_i r hfind
      have hC := hallowed r hfind
      have hkey : r.id = id := Table.find?_key hfind
      -- Who owed it before and is not the session that moves still runs.
      have hother : ∀ k, E w.committed k → ¬K r.state k →
          ∃ r' ∈ w.running, r'.id ≠ id ∧ K r'.state k := by
        intro k hE hK
        obtain ⟨r', hr', hK'⟩ := h k hE
        refine ⟨r', hr', fun hid => hK ?_, hK'⟩
        obtain rfl : r' = r := Table.eq_of_key hr' (Table.find?_mem hfind) (hid.trans hkey.symm)
        exact hK'
      split
      · exact h
      · rename_i s t answer hnext
        have hmem : ∀ r', r' ∈ w.running.update id (fun r => { r with state := t }) (fun _ => rfl) ↔
            r' = { r with state := t } ∨ (r' ∈ w.running ∧ r'.id ≠ id) := fun r' =>
          Table.mem_update_of_find _ _ hfind
        intro k hk
        rcases hp.goes _ _ _ _ _ _ hC hnext k hk with hK | ⟨hE, hK⟩
        · exact ⟨_, (hmem _).mpr (.inl rfl), hK⟩
        · obtain ⟨r', hr', hid, hK'⟩ := hother k hE hK
          exact ⟨r', (hmem _).mpr (.inr ⟨hr', hid⟩), hK'⟩
      · rename_i s answer hnext
        intro k hk
        obtain ⟨hE, hK⟩ := hp.ends _ _ _ _ _ hC hnext k hk
        obtain ⟨r', hr', hid, hK'⟩ := hother k hE hK
        exact ⟨r', Table.mem_deleteWhere.mpr ⟨hr', by simpa using hid⟩, hK'⟩

end Protocol
