import Splite.Fiscal.Drafts
import Splite.Fiscal.Drift
import Splite.Quotas

/-!
# The rates of an itemised invoice (`services/fiscalInvoiceBuilder.js`)

The draft of a payer who pays what he claimed draws on the bags of the rates of his lines. His share was
cut from all that the bill was owed, VAT and service included, and may be more than these bags hold.

* `allocateCapped_places`: the bags that the weights ask for are filled first, and what they do not hold
  is divided over the room of the others.
* `buildDraft_rates_iff`: when an itemised draft keeps to the rates of its lines.
-/

namespace Splite

open Apportion

/-! ## Where an amount goes -/

/-- The bags with room that the weights ask for. -/
def wantedBags (caps weights : List Int) : List Nat :=
  (List.range caps.length).filter fun i => weights.getD i 0 > 0 ∧ caps.getD i 0 > 0

/-- The other bags with room. -/
def otherBags (caps weights : List Int) : List Nat :=
  (List.range caps.length).filter fun i => ¬weights.getD i 0 > 0 ∧ caps.getD i 0 > 0

/-- What some of the bags hold. -/
def held (caps : List Int) (bags : List Nat) : Int := (bags.map (caps.getD · 0)).sum

/-- An amount that the bags asked for hold stays in them. Of a greater one they are filled, and the
others divide by their room what is over. -/
inductive Placed (caps weights : List Int) (amount : Int) (parts : List Int) : Prop where
  | within (h : amount ≤ held caps (wantedBags caps weights))
      (hrest : ∀ i ∉ wantedBags caps weights, parts.getD i 0 = 0) : Placed caps weights amount parts
  | beyond {allocated : List Int} (h : held caps (wantedBags caps weights) < amount)
      (hrest : ∀ i ∉ wantedBags caps weights, i ∉ otherBags caps weights → parts.getD i 0 = 0)
      (hdivide : allocate (amount - held caps (wantedBags caps weights))
        ((otherBags caps weights).map (caps.getD · 0)) = .ok allocated)
      (hgive : ∀ k, (hk : k < (otherBags caps weights).length) →
        parts.getD ((otherBags caps weights)[k]) 0 = allocated.getD k 0) :
      Placed caps weights amount parts

section Give

variable {caps : List Int}

/-- A round gives to the bags that it is about. -/
theorem giveAll_rest {j : Nat} : ∀ (l : List (Nat × Int)) (overflow : Int) (next : List Nat)
    (parts : List Int), j ∉ l.map (·.1) →
    (l.foldl (giveStep caps) (parts, overflow, next)).1.getD j 0 = parts.getD j 0
  | [], _, _, _, _ => rfl
  | (i, w) :: l, overflow, next, parts, hj => by
    rw [List.map_cons, List.mem_cons, not_or] at hj
    rw [List.foldl_cons, giveStep, giveAll_rest l _ _ _ hj.2, List.getD_eq_getElem?_getD,
      List.getElem?_set_ne (Ne.symm hj.1), ← List.getD_eq_getElem?_getD]

/-- The bags listed for the next round stay listed. -/
theorem giveAll_next {j : Nat} : ∀ (l : List (Nat × Int)) (overflow : Int) (next : List Nat)
    (parts : List Int), j ∈ next → j ∈ (l.foldl (giveStep caps) (parts, overflow, next)).2.2
  | [], _, _, _, hj => hj
  | (i, w) :: l, overflow, next, parts, hj => by
    rw [List.foldl_cons, giveStep]
    refine giveAll_next l _ _ _ ?_
    split_ifs <;> first | exact List.mem_append_left _ hj | exact hj

/-- A bag of the round that is not listed for the next one is full. -/
theorem giveAll_full : ∀ (l : List (Nat × Int)) (overflow : Int) (next : List Nat)
    (parts : List Int), (l.map (·.1)).Nodup → (∀ x ∈ l, x.1 < parts.length) → ∀ x ∈ l,
    x.1 ∈ (l.foldl (giveStep caps) (parts, overflow, next)).2.2 ∨
      caps.getD x.1 0 ≤ (l.foldl (giveStep caps) (parts, overflow, next)).1.getD x.1 0
  | [], _, _, _, _, _, _, hx => absurd hx List.not_mem_nil
  | (i, w) :: l, overflow, next, parts, hnd, hlt, x, hx => by
    obtain ⟨hil, hnd⟩ := List.nodup_cons.mp (by simpa only [List.map_cons] using hnd)
    obtain ⟨hi, hlt⟩ := List.forall_mem_cons.mp hlt
    rw [List.foldl_cons, giveStep_eq _ _ _ _ hi]
    rcases List.mem_cons.mp hx with rfl | hx
    · by_cases hroom : w < caps.getD i 0 - parts.getD i 0
      · rw [if_pos hroom]
        exact .inl (giveAll_next l _ _ _ (List.mem_append_right _ (List.mem_singleton_self i)))
      · refine .inr ?_
        rw [giveAll_rest l _ _ _ hil, getD_set i _ hi, if_pos rfl]
        simp only
        omega
    · exact giveAll_full l _ _ _ hnd (by simpa using hlt) x hx

/-- Bags that have room for what they are to get, get it. -/
theorem giveAll_exact : ∀ (l : List (Nat × Int)) (overflow : Int) (next : List Nat)
    (parts : List Int), (l.map (·.1)).Nodup → (∀ x ∈ l, x.1 < parts.length) →
    (∀ x ∈ l, x.2 ≤ caps.getD x.1 0 - parts.getD x.1 0) → ∀ x ∈ l,
    (l.foldl (giveStep caps) (parts, overflow, next)).1.getD x.1 0 = parts.getD x.1 0 + x.2
  | [], _, _, _, _, _, _, _, hx => absurd hx List.not_mem_nil
  | (i, w) :: l, overflow, next, parts, hnd, hlt, hroom, x, hx => by
    obtain ⟨hil, hnd⟩ := List.nodup_cons.mp (by simpa only [List.map_cons] using hnd)
    obtain ⟨hi, hlt⟩ := List.forall_mem_cons.mp hlt
    obtain ⟨hwi, hroom⟩ := List.forall_mem_cons.mp hroom
    have hne : ∀ y ∈ l, i ≠ y.1 := fun y hy heq => hil (heq ▸ List.mem_map_of_mem hy)
    rw [List.foldl_cons, giveStep_eq _ _ _ _ hi]
    rcases List.mem_cons.mp hx with rfl | hx
    · rw [giveAll_rest l _ _ _ hil, getD_set i _ hi, if_pos rfl]
      simp only at hwi ⊢
      omega
    · rw [giveAll_exact l _ _ _ hnd (by simpa using hlt) (fun y hy => ?_) x hx,
        getD_set x.1 _ hi, if_neg (hne x hx)]
      rw [getD_set y.1 _ hi, if_neg (hne y hy)]
      exact hroom y hy

theorem giveAll_length : ∀ (l : List (Nat × Int)) (overflow : Int) (next : List Nat)
    (parts : List Int),
    (l.foldl (giveStep caps) (parts, overflow, next)).1.length = parts.length
  | [], _, _, _ => rfl
  | (i, w) :: l, overflow, next, parts => by
    rw [List.foldl_cons, giveStep, giveAll_length l, List.length_set]

/-- A round looks at the room of its own bags only. -/
theorem giveAll_congr {caps' : List Int} : ∀ (l : List (Nat × Int)) (overflow : Int)
    (next : List Nat) (parts : List Int), (∀ x ∈ l, caps.getD x.1 0 = caps'.getD x.1 0) →
    l.foldl (giveStep caps) (parts, overflow, next) = l.foldl (giveStep caps') (parts, overflow, next)
  | [], _, _, _, _ => rfl
  | (i, w) :: l, overflow, next, parts, h => by
    obtain ⟨hi, hl⟩ := List.forall_mem_cons.mp h
    simp only at hi
    rw [List.foldl_cons, List.foldl_cons, giveStep, giveStep, hi]
    exact giveAll_congr l _ _ _ hl

end Give

section Loop

variable {caps weights parts : List Int} {amount remaining : Int} {active : List Nat}

theorem mem_wantedBags {i : Nat} : i ∈ wantedBags caps weights ↔
    i < caps.length ∧ weights.getD i 0 > 0 ∧ caps.getD i 0 > 0 := by
  simp [wantedBags]

theorem mem_otherBags {i : Nat} : i ∈ otherBags caps weights ↔
    i < caps.length ∧ ¬weights.getD i 0 > 0 ∧ caps.getD i 0 > 0 := by
  simp [otherBags]

theorem sum_filter_of_zero {α : Type} {f : α → Int} {p : α → Prop} [DecidablePred p] {l : List α}
    (h : ∀ i ∈ l, ¬p i → f i = 0) : ((l.filter p).map f).sum = (l.map f).sum := by
  induction l with
  | nil => rfl
  | cons i l ih =>
    obtain ⟨hi, hl⟩ := List.forall_mem_cons.mp h
    by_cases hp : p i
    · rw [List.filter_cons_of_pos (by simpa using hp), List.map_cons, List.sum_cons, ih hl,
        List.map_cons, List.sum_cons]
    · rw [List.filter_cons_of_neg (by simpa using hp), ih hl, List.map_cons, List.sum_cons, hi hp,
        zero_add]

/-- The bags as if the overdrawn ones were empty: both have the same room. -/
def emptied (caps : List Int) : List Int := caps.map (max · 0)

@[simp] theorem length_emptied : (emptied caps).length = caps.length := by simp [emptied]

@[simp] theorem getD_emptied (i : Nat) : (emptied caps).getD i 0 = max (caps.getD i 0) 0 := by
  simp only [emptied, List.getD_eq_getElem?_getD, List.getElem?_map]
  cases caps[i]? <;> simp

/-- What is in bags that were asked for is no more than these hold. -/
theorem Fits.sum_wanted (h : Fits (emptied caps) parts)
    (hzero : ∀ i ∉ wantedBags caps weights, parts.getD i 0 = 0) :
    parts.sum = held parts (wantedBags caps weights) ∧
      held parts (wantedBags caps weights) ≤ held caps (wantedBags caps weights) := by
  have hlen : parts.length = caps.length := by simpa using h.length_eq
  refine ⟨?_, List.sum_le_sum fun i hi => ?_⟩
  · unfold held wantedBags
    rw [sum_filter_of_zero fun i hi hne => hzero i fun hmem => hne (mem_wantedBags.mp hmem).2,
      ← hlen, map_range_getD]
  · have := h.le_cap i
    have hcap := (mem_wantedBags.mp hi).2.2
    rw [getD_emptied] at this
    omega

theorem empty_of_other (hzero : ∀ i ∉ wantedBags caps weights, parts.getD i 0 = 0) :
    ∀ i ∈ otherBags caps weights, parts.getD i 0 = 0 := fun i hi =>
  hzero i fun hmem => (mem_otherBags.mp hi).2.1 (mem_wantedBags.mp hmem).2.1

/-- When the bags that were asked for are full, those with room are the others. -/
theorem free_eq_others (hzero : ∀ i ∉ wantedBags caps weights, parts.getD i 0 = 0)
    (hfull : ∀ i ∈ wantedBags caps weights, parts.getD i 0 = caps.getD i 0) :
    ((List.range caps.length).filter fun i => caps.getD i 0 - parts.getD i 0 > 0) =
      otherBags caps weights := by
  refine List.filter_congr fun i hi => decide_eq_decide.mpr ?_
  by_cases hmem : i ∈ wantedBags caps weights
  · rw [hfull i hmem]
    have := (mem_wantedBags.mp hmem).2.1
    omega
  · have hne : ¬(weights.getD i 0 > 0 ∧ caps.getD i 0 > 0) := fun h' =>
      hmem (mem_wantedBags.mpr ⟨List.mem_range.mp hi, h'⟩)
    rw [hzero i hmem]
    omega

/-- The room of the others is what they hold. -/
theorem rooms_of_others (hempty : ∀ i ∈ otherBags caps weights, parts.getD i 0 = 0) :
    (otherBags caps weights).map (((List.range caps.length).map fun i =>
      caps.getD i 0 - parts.getD i 0).getD · 0) = (otherBags caps weights).map (caps.getD · 0) := by
  refine List.map_congr_left fun i hi => ?_
  rw [List.getD_eq_getElem _ _ (by simpa using (mem_otherBags.mp hi).1), List.getElem_map,
    List.getElem_range, hempty i hi, sub_zero]

/-- To divide an amount by what bags hold is to ask none for more than it holds. -/
theorem division_fits {bags : List Nat} {allocated : List Int}
    (happ : Apportions amount (bags.map (caps.getD · 0)) allocated)
    (hpos : ∀ w ∈ bags.map (caps.getD · 0), 0 < w) (hsum : 0 < (bags.map (caps.getD · 0)).sum)
    (h0 : 0 ≤ amount) (hle : amount ≤ (bags.map (caps.getD · 0)).sum) :
    ∀ x ∈ bags.zip allocated, 0 ≤ x.2 ∧ x.2 ≤ caps.getD x.1 0 := by
  intro x hx
  refine ⟨happ.nonneg hsum hpos h0 _ (List.of_mem_zip hx).2, ?_⟩
  obtain ⟨k, hk, rfl⟩ := List.getElem_of_mem hx
  rw [List.length_zip, lt_min_iff] at hk
  have hfits := (List.forall₂_iff_get.mp (happ.le_weight hsum hpos hle)).2 k (by simpa using hk.1) hk.2
  simpa using hfits

/-- When the bags that were asked for are full, the others divide what is over. -/
theorem Filling.divides (h : Filling (emptied caps) weights amount parts remaining [])
    (hzero : ∀ i ∉ wantedBags caps weights, parts.getD i 0 = 0)
    (hfull : ∀ i ∈ wantedBags caps weights, parts.getD i 0 = caps.getD i 0) (hr : 0 < remaining)
    (hle : amount ≤ held caps (wantedBags caps weights) + held caps (otherBags caps weights))
    (rounds : Nat) : ∃ result, distribute caps (rounds + 1) weights parts remaining [] = .ok result ∧
      Fits (emptied caps) result ∧ result.sum = amount ∧ Placed caps weights amount result := by
  have hempty := empty_of_other hzero
  have hfree := free_eq_others hzero hfull
  have hrooms := rooms_of_others hempty
  set others := otherBags caps weights with hothers
  have hlen : parts.length = caps.length := by simpa using h.fits.length_eq
  have hsum : parts.sum = held caps (wantedBags caps weights) := by
    rw [(h.fits.sum_wanted hzero).1]
    unfold held
    rw [List.map_congr_left hfull]
  have hover : remaining = amount - held caps (wantedBags caps weights) := by
    have := h.sum_eq
    omega
  have hpos : ∀ w ∈ others.map (caps.getD · 0), 0 < w := by
    simp only [List.mem_map]
    rintro _ ⟨i, hi, rfl⟩
    exact (mem_otherBags.mp hi).2.2
  have hfew : remaining ≤ (others.map (caps.getD · 0)).sum := by
    simp only [held] at hle hover
    omega
  have hne : others ≠ [] := by
    intro hnil
    rw [hnil, List.map_nil, List.sum_nil] at hfew
    omega
  have hne' : others.map (caps.getD · 0) ≠ [] := by simpa using hne
  obtain ⟨allocated, hall, happ⟩ := allocate_apportions hr.le hne' hpos
  have hfits' := division_fits happ hpos (List.sum_pos _ hpos hne') hr.le hfew
  have halen : allocated.length = others.length := by simpa using happ.length_eq.symm
  have hfst : (others.zip allocated).map (·.1) = others := List.map_fst_zip halen.ge
  have hnd : ((others.zip allocated).map (·.1)).Nodup := hfst.symm ▸ List.nodup_range.filter _
  have hlt : ∀ x ∈ others.zip allocated, x.1 < parts.length := fun x hx =>
    hlen ▸ (mem_otherBags.mp (List.of_mem_zip hx).1).1
  have hroom : ∀ x ∈ others.zip allocated, x.2 ≤ caps.getD x.1 0 - parts.getD x.1 0 := by
    intro x hx
    rw [hempty _ (List.of_mem_zip hx).1, sub_zero]
    exact (hfits' x hx).2
  have hcaps : ∀ x ∈ others.zip allocated, caps.getD x.1 0 = (emptied caps).getD x.1 0 := by
    intro x hx
    have := (mem_otherBags.mp (List.of_mem_zip hx).1).2.2
    rw [getD_emptied]
    omega
  obtain ⟨parts', overflow, next, hfold, hfits, hsum', -, -, -, -, -, hzero'⟩ :=
    giveAll_spec (others.zip allocated) 0 [] h.fits hnd fun x hx =>
      ⟨by simpa [← hlen] using hlt x hx, (hfits' x hx).1⟩
  obtain rfl := hzero' fun x hx => hcaps x hx ▸ hroom x hx
  rw [← giveAll_congr _ _ _ _ hcaps] at hfold
  have hparts : parts' = ((others.zip allocated).foldl (giveStep caps) (parts, 0, [])).1 := by
    rw [hfold]
  rw [List.map_snd_zip halen.le, happ.sum_eq] at hsum'
  refine ⟨parts', ?_, hfits, by omega,
    .beyond (by omega) (fun i hi hi' => ?_) (hover ▸ hall) fun k hk => ?_⟩
  · simp only [distribute, reactivate, hr, if_true, hfree, hne, if_false, Except.ok_bind, hrooms, hall,
      hfold, distribute_done]
  · rw [hparts, giveAll_rest _ _ _ _ (hfst.symm ▸ hi'), hzero i hi]
  · have hk : k < others.length := hk
    have hmem : (others[k], allocated[k]) ∈ others.zip allocated := by
      rw [← List.getElem_zip (h := by simp; omega)]
      exact List.getElem_mem _
    rw [hparts, giveAll_exact _ _ _ _ hnd hlt hroom _ hmem, hempty _ (List.getElem_mem hk), zero_add,
      List.getD_eq_getElem _ _ (by omega)]

/-- The bags with room hold all that the bags hold, and more when some are overdrawn. -/
theorem sum_le_held :
    caps.sum ≤ held caps (wantedBags caps weights) + held caps (otherBags caps weights) := by
  have hsplit : ∀ l : List Nat, (l.map (caps.getD · 0)).sum ≤
      ((l.filter fun i => weights.getD i 0 > 0 ∧ caps.getD i 0 > 0).map (caps.getD · 0)).sum +
        ((l.filter fun i => ¬weights.getD i 0 > 0 ∧ caps.getD i 0 > 0).map (caps.getD · 0)).sum := by
    intro l
    induction l with
    | nil => simp
    | cons i l ih =>
      simp only [List.filter_cons, List.map_cons, List.sum_cons, decide_eq_true_eq]
      split_ifs <;> (try simp only [List.map_cons, List.sum_cons]) <;> omega
  have hall := hsplit (List.range caps.length)
  rwa [map_range_getD] at hall

/-- One round keeps to the bags that were asked for, and fills those it is done with. -/
theorem Filling.round_wanted (h : Filling (emptied caps) weights amount parts remaining active)
    (hr : 0 < remaining) (hne : active ≠ []) (hactive : ∀ i ∈ active, i ∈ wantedBags caps weights)
    (hzero : ∀ i ∉ wantedBags caps weights, parts.getD i 0 = 0)
    (hfull : ∀ i ∈ wantedBags caps weights, i ∉ active → parts.getD i 0 = caps.getD i 0) :
    ∃ allocated parts' overflow next,
      allocate remaining (active.map (weights.getD · 0)) = .ok allocated ∧
      (active.zip allocated).foldl (giveStep caps) (parts, 0, []) = (parts', overflow, next) ∧
      Filling (emptied caps) weights amount parts' overflow next ∧
      (0 < overflow → next.length < active.length) ∧
      (∀ i ∈ next, i ∈ wantedBags caps weights) ∧
      (∀ i ∉ wantedBags caps weights, parts'.getD i 0 = 0) ∧
      ∀ i ∈ wantedBags caps weights, i ∉ next → parts'.getD i 0 = caps.getD i 0 := by
  obtain ⟨allocated, parts', overflow, next, hall, hfold, hf, hdrop, -⟩ := h.round hr hne
  have hcaps : ∀ x ∈ active.zip allocated, caps.getD x.1 0 = (emptied caps).getD x.1 0 := by
    intro x hx
    have := (mem_wantedBags.mp (hactive _ (List.of_mem_zip hx).1)).2.2
    rw [getD_emptied]
    omega
  rw [← giveAll_congr _ _ _ _ hcaps] at hfold
  have hparts : parts' = ((active.zip allocated).foldl (giveStep caps) (parts, 0, [])).1 := by
    rw [hfold]
  have hlen : active.length = allocated.length := by
    have hpos : ∀ w ∈ active.map (weights.getD · 0), 0 < w := by
      simp only [List.mem_map]
      rintro _ ⟨i, hi, rfl⟩
      exact h.weight i hi
    obtain ⟨allocated', hall', happ⟩ := allocate_apportions hr.le (by simpa using hne) hpos
    obtain rfl := Except.ok.inj (hall.symm.trans hall')
    simpa using happ.length_eq
  have hfst : (active.zip allocated).map (·.1) = active := List.map_fst_zip hlen.le
  refine ⟨allocated, parts', overflow, next, hall, hfold, hf, hdrop, fun i hi => ?_, fun i hi => ?_,
    fun i hi hinext => ?_⟩
  · have hroom := hf.room i hi
    have h0 := hf.fits.nonneg i
    have hlt := hf.lt_length i hi
    rw [getD_emptied] at hroom
    rw [length_emptied] at hlt
    exact mem_wantedBags.mpr ⟨hlt, hf.weight i hi, by omega⟩
  · rw [hparts, giveAll_rest _ _ _ _ (hfst.symm ▸ fun hmem => hi (hactive i hmem)), hzero i hi]
  · by_cases hmem : i ∈ active
    · obtain ⟨k, hk, rfl⟩ := List.getElem_of_mem hmem
      have hk' : k < (active.zip allocated).length := by simp; omega
      have hx := List.getElem_mem hk'
      rw [List.getElem_zip] at hx
      have hlt : ∀ x ∈ active.zip allocated, x.1 < parts.length := fun x hx => by
        rw [h.fits.length_eq]
        exact h.lt_length _ (List.of_mem_zip hx).1
      have hleft : _ ∨ caps.getD active[k] 0 ≤ _ :=
        giveAll_full _ 0 [] parts (hfst.symm ▸ h.nodup) hlt _ hx
      rw [hfold] at hleft
      have hge := hleft.resolve_left hinext
      have hcap := hf.fits.le_cap active[k]
      have := (mem_wantedBags.mp hi).2.2
      rw [getD_emptied] at hcap
      simp only at hge
      omega
    · rw [hparts, giveAll_rest _ _ _ _ (hfst.symm ▸ hmem), hfull i hi hmem]

/-- The loop fills the bags that were asked for before it turns to the others. -/
theorem distribute_places
    (hle : amount ≤ held caps (wantedBags caps weights) + held caps (otherBags caps weights)) :
    ∀ {rounds : Nat} {parts : List Int} {remaining : Int} {active : List Nat},
      Filling (emptied caps) weights amount parts remaining active →
      (∀ i ∈ active, i ∈ wantedBags caps weights) →
      (∀ i ∉ wantedBags caps weights, parts.getD i 0 = 0) →
      (∀ i ∈ wantedBags caps weights, i ∉ active → parts.getD i 0 = caps.getD i 0) →
      active.length + 1 ≤ rounds →
      ∃ result, distribute caps rounds weights parts remaining active = .ok result ∧
        Fits (emptied caps) result ∧ result.sum = amount ∧ Placed caps weights amount result := by
  intro rounds
  induction rounds with
  | zero => intro _ _ _ _ _ _ _ hrounds; omega
  | succ rounds ih =>
    intro parts remaining active h hactive hzero hfull hrounds
    have hdone : ∀ {parts : List Int} {active : List Nat},
        Filling (emptied caps) weights amount parts 0 active →
        (∀ i ∉ wantedBags caps weights, parts.getD i 0 = 0) →
        Fits (emptied caps) parts ∧ parts.sum = amount ∧ Placed caps weights amount parts := by
      intro parts active hf hzero
      have hsum := hf.sum_eq
      have := hf.fits.sum_wanted hzero
      exact ⟨hf.fits, by omega, .within (by omega) hzero⟩
    rcases h.remaining_nonneg.eq_or_lt with h0 | hr
    · subst h0
      exact ⟨parts, distribute_done _, hdone h hzero⟩
    by_cases hne : active = []
    · subst hne
      exact h.divides hzero (fun i hi => hfull i hi List.not_mem_nil) hr hle rounds
    · obtain ⟨allocated, parts', overflow, next, hall, hfold, hf, hdrop, hactive', hzero', hfull'⟩ :=
        h.round_wanted hr hne hactive hzero hfull
      have hstep : distribute caps (rounds + 1) weights parts remaining active =
          distribute caps rounds weights parts' overflow next := by
        simp only [distribute, reactivate, hne, hr, if_true, if_false, Except.ok_bind, hall, hfold]
      rw [hstep]
      rcases hf.remaining_nonneg.eq_or_lt with h0 | ho
      · subst h0
        exact ⟨parts', distribute_done _, hdone hf hzero'⟩
      · exact ih hf hactive' hzero' hfull' (by have := hdrop ho; omega)

end Loop

/-- An amount that the bags with room can hold is placed: in the bags asked for, as far as these hold
it, and then in the others. -/
theorem allocateCapped_places {amount : Int} {caps weights : List Int} (h0 : 0 ≤ amount)
    (hle : amount ≤ caps.sum) :
    ∃ parts, allocateCapped amount weights caps = .ok parts ∧ Fits (emptied caps) parts ∧
      parts.sum = amount ∧ Placed caps weights amount parts := by
  have hget := getD_map_zero caps
  refine distribute_places (hle.trans sum_le_held) ?_ (fun i hi => hi) (fun i _ => hget i)
    (fun i hi hi' => absurd hi hi') ?_
  · exact
      { fits := ⟨by simp, fun i => (hget i).ge, fun i => by rw [hget, getD_emptied]; exact le_max_right _ _⟩
        sum_eq := by simp
        remaining_nonneg := h0
        nodup := List.nodup_range.filter _
        lt_length := fun i hi => by simpa using (mem_wantedBags.mp hi).1
        room := fun i hi => by
          have := (mem_wantedBags.mp hi).2.2
          rw [hget, getD_emptied]
          omega
        weight := fun i hi => (mem_wantedBags.mp hi).2.1 }
  · have := List.length_filter_le (fun i => decide (weights.getD i 0 > 0 ∧ caps.getD i 0 > 0))
      (List.range caps.length)
    simp only [List.length_range] at this
    omega

/-! ## The rates of one draft -/

/-- The bags at the rates of the lines hold the payment; or they lack so little that no bag at another
rate gets a unit of it when it is divided over the room that is left. -/
def FiscalState.HoldsFor (state : FiscalState) (lines : List SourceLine) (paidMinor : Int) : Prop :=
  let weights := compositionFor state.groups lines
  let wanted := held state.bags (wantedBags state.bags weights)
  let others := otherBags state.bags weights
  paidMinor ≤ wanted ∨ ∀ k : Fin others.length, ∀ g ∈ state.groups[others[k]]?,
    g.vatBps ∉ lines.map (·.vatBps) →
      Misses (paidMinor - wanted) (others.map (state.bags.getD · 0)) k

instance (state : FiscalState) (lines : List SourceLine) (paidMinor : Int) :
    Decidable (state.HoldsFor lines paidMinor) :=
  inferInstanceAs (Decidable (_ ∨ _))

/-- A draft declares at these rates only, and no VAT when they are all zero. -/
def InvoiceDraft.KeepsTo (draft : InvoiceDraft) (rates : List Nat) : Prop :=
  (∀ t ∈ draft.taxes, ∃ rate ∈ rates, t.vatBps = rate) ∧
    ((∀ rate ∈ rates, rate = 0) → draft.vatMinor = 0)

instance (draft : InvoiceDraft) (rates : List Nat) : Decidable (draft.KeepsTo rates) :=
  inferInstanceAs (Decidable (_ ∧ _))

/-- The breakdown of a draft declares at these rates only. -/
def InvoiceDraft.DeclaresAt (draft : InvoiceDraft) (rates : List Nat) : Prop :=
  ∀ t ∈ draft.taxes, ∃ rate ∈ rates, t.vatBps = rate

section Draft

variable {g : FiscalGroup} {share : Int} {r : FiscalGroup × FiscalGroup}

/-- What a bag that has the room declares of a share. -/
theorem drawGroup_declares (h : drawGroup g share = .ok r) (h0 : 0 ≤ share)
    (hle : 0 < share → share ≤ g.baseMinor + g.vatMinor) :
    r.1.vatBps = g.vatBps ∧ 0 ≤ r.1.baseMinor ∧ 0 ≤ r.1.vatMinor ∧
      r.1.baseMinor + r.1.vatMinor = share ∧ (g.vatMinor ≤ 0 → r.1.vatMinor = 0) := by
  unfold drawGroup at h
  obtain ⟨⟨b, v⟩, hsplit, h⟩ := Except.bind_eq_ok.mp h
  cases h
  refine ⟨rfl, ?_⟩
  show 0 ≤ b ∧ 0 ≤ v ∧ b + v = share ∧ (g.vatMinor ≤ 0 → v = 0)
  unfold splitShare at hsplit
  simp only at hsplit
  split at hsplit
  · rename_i hshare
    split at hsplit
    · rename_i hboth
      obtain ⟨parts, hparts, happ⟩ : ∃ parts, allocate share [g.baseMinor, g.vatMinor] = .ok parts ∧
          Apportions share [g.baseMinor, g.vatMinor] parts :=
        allocate_apportions h0 (by simp) (by simp; omega)
      rw [hparts, Except.ok_bind] at hsplit
      have hlen := happ.length_eq
      have hnonneg := happ.nonneg (by simp; omega) (by simp; omega) h0
      have hsum := happ.sum_eq
      match parts, hlen, hnonneg, hsum, hsplit with
      | [x, y], _, hnonneg, hsum, hsplit =>
        simp only [List.getD_cons_zero, List.getD_cons_succ, Except.ok.injEq, Prod.mk.injEq] at hsplit
        simp only [List.mem_cons, List.not_mem_nil, or_false, forall_eq_or_imp, forall_eq] at hnonneg
        simp only [List.sum_cons, List.sum_nil, add_zero] at hsum
        omega
    · split at hsplit <;> cases hsplit <;> omega
  · rename_i hshare
    cases hsplit
    omega

/-- What the group of an invoice declares of its bag's part. -/
structure Declares (x : FiscalGroup × Int) (taken : FiscalGroup) : Prop where
  rate : taken.vatBps = x.1.vatBps
  base : 0 ≤ taken.baseMinor
  vat : 0 ≤ taken.vatMinor
  part : taken.baseMinor + taken.vatMinor = x.2
  noVat : x.1.vatMinor ≤ 0 → taken.vatMinor = 0

/-- The groups of an invoice declare the parts of the bags; the part of the last one is the service. -/
theorem allocatePayment_declares {state remaining : FiscalState} {amount : Int}
    {composition : Option (List Int)} {invoice : FiscalInvoice} (h0 : 0 < amount)
    (h : allocatePayment state amount composition = .ok (invoice, remaining)) :
    ∃ weights parts, (∀ c, composition = some c → c.length = state.bags.length → weights = c) ∧
      Fits (emptied state.bags) parts ∧ parts.sum = amount ∧
      Placed state.bags weights amount parts ∧
      List.Forall₂ Declares (state.groups.zip parts) invoice.groups ∧
      invoice.serviceMinor = parts.getD state.groups.length 0 ∧ invoice.totalMinor = amount := by
  have hle : amount ≤ outstandingOf state := by
    by_contra hover
    simp only [allocatePayment, if_neg (not_lt.mpr h0.le), if_pos (not_le.mp hover)] at h
    cases h
  have hbags : (state.groups.map fun g => g.baseMinor + g.vatMinor) ++ [state.serviceMinor] =
    state.bags := rfl
  have hsum : state.bags.sum = outstandingOf state := by
    rw [← hbags]
    simp [outstandingOf]
  simp only [allocatePayment, if_neg (not_lt.mpr h0.le), if_neg (not_lt.mpr hle), if_neg h0.ne',
    hbags] at h
  obtain ⟨parts, hparts, h⟩ := Except.bind_eq_ok.mp h
  obtain ⟨drawn, hdrawn, h⟩ := Except.bind_eq_ok.mp h
  obtain ⟨rfl, -⟩ := Prod.mk.inj (Except.ok.inj h)
  obtain ⟨parts', hparts', hfits, htotal, hplaced⟩ :=
    allocateCapped_places h0.le (hsum ▸ hle)
  obtain rfl := Except.ok.inj (hparts'.symm.trans hparts)
  refine ⟨_, parts', fun c hc hlen => ?_, hfits, htotal, hplaced, ?_, ?_, rfl⟩
  · subst hc
    rw [← hlen]
    exact map_range_getD c
  · rw [List.forall₂_map_right_iff]
    have hdraw := List.forall₂_iff_get.mp (Except.mapM_eq_ok hdrawn)
    refine List.forall₂_iff_get.mpr ⟨hdraw.1, fun i hi hi' => ?_⟩
    have hig : i < state.groups.length := by
      rw [List.length_zip] at hi
      omega
    have hip : i < parts'.length := by
      rw [List.length_zip] at hi
      omega
    have hget := hdraw.2 i hi hi'
    simp only [List.get_eq_getElem, List.getElem_zip] at hget ⊢
    have h0 := hfits.nonneg i
    have hcap := hfits.le_cap i
    have hbag : state.bags.getD i 0 = state.groups[i].baseMinor + state.groups[i].vatMinor := by
      rw [FiscalState.bags, List.getD_append _ _ _ _ (by simpa using hig),
        List.getD_eq_getElem _ _ (by simpa using hig), List.getElem_map]
    rw [getD_emptied, hbag, List.getD_eq_getElem _ _ hip] at hcap
    rw [List.getD_eq_getElem _ _ hip] at h0
    obtain ⟨hrate, hbase, hvat, hpart, hnone⟩ := drawGroup_declares hget h0 fun hpos => by omega
    exact ⟨hrate, hbase, hvat, hpart, hnone⟩
  · simp [FiscalState.bags]

/-- A rate that a payer's lines ask a bag for is the rate of one of them. -/
theorem rate_of_wanted {state : FiscalState} {lines : List SourceLine} {i : Nat}
    (hi : i ∈ wantedBags state.bags (compositionFor state.groups lines))
    (hg : i < state.groups.length) : (state.groups[i]).vatBps ∈ lines.map (·.vatBps) := by
  obtain ⟨-, hweight, -⟩ := mem_wantedBags.mp hi
  rw [compositionFor, List.getD_append _ _ _ _ (by simpa using hg),
    List.getD_eq_getElem _ _ (by simpa using hg), List.getElem_map] at hweight
  by_contra hne
  have hnil : lines.filter (·.vatBps = (state.groups[i]).vatBps) = [] := by
    refine List.filter_eq_nil_iff.mpr fun l hl => ?_
    simp only [decide_eq_true_eq]
    exact fun heq => hne (heq ▸ List.mem_map_of_mem hl)
  rw [hnil] at hweight
  simp at hweight

/-- The parts stay at the rates of the lines exactly when the bags hold the payment for them. -/
theorem Placed.holdsFor_iff {state : FiscalState} {lines : List SourceLine} {paidMinor : Int}
    {parts : List Int} (h0 : ∀ i, 0 ≤ parts.getD i 0)
    (h : Placed state.bags (compositionFor state.groups lines) paidMinor parts) :
    (∀ i, (hi : i < state.groups.length) → 0 < parts.getD i 0 →
      (state.groups[i]).vatBps ∈ lines.map (·.vatBps)) ↔ state.HoldsFor lines paidMinor := by
  cases h with
  | within hle hrest =>
    refine iff_of_true (fun i hi hpos => rate_of_wanted ?_ hi) (.inl hle)
    by_contra hne
    rw [hrest i hne] at hpos
    omega
  | @beyond allocated hover hrest hdivide hgive =>
    set others := otherBags state.bags (compositionFor state.groups lines)
    have hpos : ∀ w ∈ others.map (state.bags.getD · 0), 0 < w := by
      simp only [List.mem_map]
      rintro _ ⟨i, hi, rfl⟩
      exact (mem_otherBags.mp hi).2.2
    have hmiss : ∀ k : Fin others.length, parts.getD others[k] 0 = 0 ↔
        Misses (paidMinor - held state.bags (wantedBags state.bags
          (compositionFor state.groups lines))) (others.map (state.bags.getD · 0)) k := by
      intro k
      rw [← allocate_getD_eq_zero_iff (by omega) hpos hdivide (by simp)]
      exact iff_of_eq (congrArg (· = 0) (hgive k k.2))
    constructor
    · intro hkeep
      refine .inr fun k g hg hne => (hmiss k).mp ?_
      obtain ⟨hlt, rfl⟩ := List.getElem?_eq_some_iff.mp hg
      by_contra hpart
      have := h0 others[k]
      exact hne (hkeep others[k] hlt (by omega))
    · rintro (hle | hall) i hi hpart
      · exact absurd hle (not_le.mpr hover)
      · by_contra hne
        by_cases hother : i ∈ others
        · obtain ⟨k, hk, rfl⟩ := List.getElem_of_mem hother
          have hnone := (hmiss ⟨k, hk⟩).mpr
            (hall ⟨k, hk⟩ _ (List.getElem?_eq_getElem hi) hne)
          simp only [Fin.getElem_fin] at hnone
          omega
        · rw [hrest i (fun hwanted => hne (rate_of_wanted hwanted hi)) hother] at hpart
          omega

/-- The groups of the invoice that an itemised draft is of declare the parts of their bags. -/
theorem itemised_declares {state remaining : FiscalState} {lines : List SourceLine}
    {paidMinor : Int} {tableName : Option String} {draft : InvoiceDraft} (h0 : 0 < paidMinor)
    (h : buildDraft state paidMinor .itemised lines tableName = .ok (draft, remaining)) :
    ∃ invoice parts, draft.Of invoice ∧ (∀ i, 0 ≤ parts.getD i 0) ∧
      Placed state.bags (compositionFor state.groups lines) paidMinor parts ∧
      invoice.groups.length = state.groups.length ∧
      (∀ i, (hi : i < state.groups.length) → ∃ hi' : i < invoice.groups.length,
        Declares (state.groups[i], parts.getD i 0) (invoice.groups[i])) := by
  obtain ⟨-, -, invoice, hallocate, hof⟩ := buildDraft_ok h
  obtain ⟨weights, parts, hweights, hfits, -, hplaced, hdeclares, -, -⟩ :=
    allocatePayment_declares h0 hallocate
  obtain rfl := hweights _ rfl (by simp [compositionFor, FiscalState.bags])
  obtain ⟨hlen, hget⟩ := List.forall₂_iff_get.mp hdeclares
  have hplen : parts.length = state.groups.length + 1 := by
    simpa [FiscalState.bags] using hfits.length_eq
  have hglen : invoice.groups.length = state.groups.length := by
    rw [← hlen, List.length_zip]
    omega
  refine ⟨invoice, parts, hof, hfits.nonneg, hplaced, hglen, fun i hi => ⟨hglen ▸ hi, ?_⟩⟩
  have hd := hget i (by rw [List.length_zip]; omega) (by omega)
  simp only [List.get_eq_getElem, List.getElem_zip] at hd
  rwa [List.getD_eq_getElem _ _ (by omega)]

/-- The breakdown of an itemised draft keeps to the rates of its lines exactly when the bags hold the
payment for them. -/
theorem buildDraft_taxes_iff {state remaining : FiscalState} {lines : List SourceLine}
    {paidMinor : Int} {tableName : Option String} {draft : InvoiceDraft} (h0 : 0 < paidMinor)
    (h : buildDraft state paidMinor .itemised lines tableName = .ok (draft, remaining)) :
    draft.DeclaresAt (lines.map (·.vatBps)) ↔ state.HoldsFor lines paidMinor := by
  obtain ⟨invoice, parts, hof, hnonneg, hplaced, hglen, hgroup⟩ := itemised_declares h0 h
  rw [← hplaced.holdsFor_iff hnonneg, InvoiceDraft.DeclaresAt, hof.taxes]
  constructor
  · intro htaxes i hi hpart
    obtain ⟨hi', hrate, hbase, hvat, hsum, -⟩ := hgroup i hi
    obtain ⟨rate, hin, heq⟩ := htaxes _ (List.mem_map_of_mem (List.mem_filter.mpr
      ⟨List.getElem_mem hi', by simp only at hsum; simp; omega⟩))
    have hrate' : (invoice.groups[i]).vatBps = rate := Int.ofNat_inj.mp heq
    rw [← show (invoice.groups[i]).vatBps = (state.groups[i]).vatBps from hrate, hrate']
    exact hin
  · intro hkeep t ht
    obtain ⟨g, hg, rfl⟩ := List.mem_map.mp ht
    obtain ⟨hg, hpos⟩ := List.mem_filter.mp hg
    obtain ⟨i, hi, rfl⟩ := List.getElem_of_mem hg
    obtain ⟨_, hrate, hbase, hvat, hsum, -⟩ := hgroup i (hglen ▸ hi)
    refine ⟨_, hkeep i (hglen ▸ hi) ?_, congrArg Int.ofNat hrate⟩
    simp only [gt_iff_lt, decide_eq_true_eq] at hpos hsum
    omega

/-- An itemised draft keeps to the rates of its lines exactly when the bags hold the payment for
them. -/
theorem buildDraft_rates_iff {state remaining : FiscalState} {lines : List SourceLine}
    {paidMinor : Int} {tableName : Option String} {draft : InvoiceDraft} (h0 : 0 < paidMinor)
    (hzero : ∀ g ∈ state.groups, g.vatBps = 0 → g.vatMinor ≤ 0)
    (h : buildDraft state paidMinor .itemised lines tableName = .ok (draft, remaining)) :
    draft.KeepsTo (lines.map (·.vatBps)) ↔ state.HoldsFor lines paidMinor := by
  rw [← buildDraft_taxes_iff h0 h]
  show (draft.DeclaresAt _ ∧ _) ↔ draft.DeclaresAt _
  refine and_iff_left_of_imp fun htaxes hzeros => ?_
  obtain ⟨invoice, parts, hof, hnonneg, hplaced, hglen, hgroup⟩ := itemised_declares h0 h
  have hkeep := (hplaced.holdsFor_iff hnonneg).mpr ((buildDraft_taxes_iff h0 h).mp htaxes)
  rw [hof.vat]
  refine List.sum_eq_zero fun v hv => ?_
  obtain ⟨g, hg, rfl⟩ := List.mem_map.mp hv
  obtain ⟨i, hi, rfl⟩ := List.getElem_of_mem hg
  obtain ⟨_, hrate, hbase, hvat, hsum, hnone⟩ := hgroup i (hglen ▸ hi)
  by_contra hne
  simp only at hsum
  have hrate0 := hzeros _ (hkeep i (hglen ▸ hi) (by omega))
  exact hne (hnone (hzero _ (List.getElem_mem _) hrate0))

end Draft

end Splite
