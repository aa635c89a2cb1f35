import Splite.Split
import Splite.Lib.Except

/-!
# Declaring a payment (`services/fiscalAllocation.js`)

A bill carries one bag for every VAT rate and one for the service. Every payment takes its amount
out of what the bags still hold.

* `allocateCapped_fills`: the capped redistribution loop ends and places the whole amount, whatever
  the weights ask for.
* `allocatePayment_draws`: one payment splits each bag into what its invoice declares and the rest.
* `allocatePayments_exact`: over a sequence of payments nothing is declared twice or lost.
-/

namespace Splite

open Apportion

/-! ## The loop of `allocateCapped` -/

/-- The body of `active.forEach`: bag `index` takes what it has room for. -/
def giveStep (caps : List Int) :
    List Int × Int × List Nat → Nat × Int → List Int × Int × List Nat
  | (parts, overflow, next), (index, wanted) =>
    let room := caps.getD index 0 - parts.getD index 0
    let give := if wanted > room then room else wanted
    let parts := parts.set index (parts.getD index 0 + give)
    (parts, overflow + (wanted - give),
      if caps.getD index 0 - parts.getD index 0 > 0 then next ++ [index] else next)

/-- `if (active.length === 0)`: the weights reach no bag with room, so every bag with room is
active, with its room as its weight. -/
def reactivate (caps weights parts : List Int) (active : List Nat) :
    Except Err (List Nat × List Int) :=
  if active = [] then
    let active := (List.range caps.length).filter fun i => caps.getD i 0 - parts.getD i 0 > 0
    if active = [] then .error (.error "No queda dónde declarar el importe")
    else .ok (active, (List.range caps.length).map fun i => caps.getD i 0 - parts.getD i 0)
  else .ok (active, weights)

/-- The `while` loop, with the rounds that the guard still allows. -/
def distribute (caps : List Int) :
    (rounds : Nat) → (weights parts : List Int) → (remaining : Int) → (active : List Nat) →
      Except Err (List Int)
  | 0, _, parts, remaining, _ =>
    if remaining > 0 then .error (.error "El reparto por pesos no converge") else .ok parts
  | rounds + 1, weights, parts, remaining, active =>
    if remaining > 0 then do
      let (active, weights) ← reactivate caps weights parts active
      let allocated ← allocate remaining (active.map (weights.getD · 0))
      let (parts, overflow, next) := (active.zip allocated).foldl (giveStep caps) (parts, 0, [])
      distribute caps rounds weights parts overflow next
    else .ok parts

/-- `allocateCapped(amount, initialWeights, caps)`. -/
def allocateCapped (amount : Int) (initialWeights caps : List Int) : Except Err (List Int) :=
  distribute caps (caps.length + 2) initialWeights (caps.map fun _ => 0) amount
    ((List.range caps.length).filter fun i => initialWeights.getD i 0 > 0 ∧ caps.getD i 0 > 0)

/-- Parts that no bag is overdrawn by. -/
structure Fits (caps parts : List Int) : Prop where
  length_eq : parts.length = caps.length
  nonneg : ∀ i, 0 ≤ parts.getD i 0
  le_cap : ∀ i, parts.getD i 0 ≤ caps.getD i 0

/-- Between two rounds: the parts and what remains make up the amount, and every active bag has
room and a weight. -/
structure Filling (caps weights : List Int) (amount : Int) (parts : List Int) (remaining : Int)
    (active : List Nat) : Prop where
  fits : Fits caps parts
  sum_eq : parts.sum + remaining = amount
  remaining_nonneg : 0 ≤ remaining
  nodup : active.Nodup
  lt_length : ∀ i ∈ active, i < caps.length
  room : ∀ i ∈ active, parts.getD i 0 < caps.getD i 0
  weight : ∀ i ∈ active, 0 < weights.getD i 0

section Give

variable {caps : List Int}

theorem getD_set {l : List Int} {i : Nat} (j : Nat) (x : Int) (hi : i < l.length) :
    (l.set i x).getD j 0 = if i = j then x else l.getD j 0 := by
  simp only [List.getD_eq_getElem?_getD, List.getElem?_set, hi, if_true]
  split <;> simp

theorem sum_set_getD {l : List Int} {i : Nat} (x : Int) (hi : i < l.length) :
    (l.set i x).sum = l.sum - l.getD i 0 + x := by
  rw [List.sum_set', dif_pos hi, List.getD_eq_getElem _ _ hi]
  ring

theorem giveStep_eq (parts : List Int) (overflow : Int) (next : List Nat) {i : Nat} (w : Int)
    (hi : i < parts.length) :
    giveStep caps (parts, overflow, next) (i, w) =
      (parts.set i (parts.getD i 0 + min w (caps.getD i 0 - parts.getD i 0)),
        overflow + (w - min w (caps.getD i 0 - parts.getD i 0)),
        if w < caps.getD i 0 - parts.getD i 0 then next ++ [i] else next) := by
  have hmin : (if w > caps.getD i 0 - parts.getD i 0 then caps.getD i 0 - parts.getD i 0 else w) =
      min w (caps.getD i 0 - parts.getD i 0) := by split <;> omega
  simp only [giveStep, hmin, getD_set i _ hi, if_true]
  congr 2
  exact if_congr (by omega) rfl rfl

theorem Fits.give {parts : List Int} (h : Fits caps parts) {i : Nat} {w : Int} (hw : 0 ≤ w)
    (hi : i < caps.length) :
    Fits caps (parts.set i (parts.getD i 0 + min w (caps.getD i 0 - parts.getD i 0))) := by
  have hi' : i < parts.length := h.length_eq ▸ hi
  refine ⟨by simp [h.length_eq], fun j => ?_, fun j => ?_⟩ <;> rw [getD_set j _ hi'] <;>
    have := h.nonneg j <;> have := h.le_cap j <;> split <;> try subst j <;> omega
  all_goals omega

/-- One round over bags that are pairwise different: the bags fit, nothing is lost, the bags
listed for the next round have room, and a unit that overflows has filled a bag. -/
theorem giveAll_spec : ∀ (l : List (Nat × Int)) {parts : List Int} (overflow : Int)
    (next : List Nat), Fits caps parts → (l.map (·.1)).Nodup →
    (∀ x ∈ l, x.1 < caps.length ∧ 0 ≤ x.2) →
    ∃ parts' overflow' rest,
      l.foldl (giveStep caps) (parts, overflow, next) = (parts', overflow', next ++ rest) ∧
      Fits caps parts' ∧ parts'.sum + overflow' = parts.sum + overflow + (l.map (·.2)).sum ∧
      overflow ≤ overflow' ∧ rest.Sublist (l.map (·.1)) ∧
      (∀ i ∈ rest, parts'.getD i 0 < caps.getD i 0) ∧
      (∀ j ∉ l.map (·.1), parts'.getD j 0 = parts.getD j 0) ∧
      (overflow < overflow' → rest.length < l.length) ∧
      ((∀ x ∈ l, x.2 ≤ caps.getD x.1 0 - parts.getD x.1 0) → overflow' = overflow)
  | [], parts, overflow, next, hf, _, _ =>
    ⟨parts, overflow, [], by simp, hf, by simp, le_rfl, List.Sublist.refl _, by simp, by simp,
      by omega, by simp⟩
  | (i, w) :: l, parts, overflow, next, hf, hnd, hl => by
    obtain ⟨hil, hnd⟩ := List.nodup_cons.mp (by simpa only [List.map_cons] using hnd)
    obtain ⟨hi, hw⟩ := hl _ List.mem_cons_self
    have hi' : i < parts.length := hf.length_eq ▸ hi
    have hroom := hf.le_cap i
    obtain ⟨parts', overflow', rest, hfold, hf', hsum, hle, hsub, hlt, hout, hdrop, hzero⟩ :=
      giveAll_spec l (overflow + (w - min w (caps.getD i 0 - parts.getD i 0)))
        (if w < caps.getD i 0 - parts.getD i 0 then next ++ [i] else next)
        (hf.give hw hi) hnd fun x hx => hl x (List.mem_cons_of_mem _ hx)
    have hget : parts'.getD i 0 = parts.getD i 0 + min w (caps.getD i 0 - parts.getD i 0) := by
      rw [hout i hil, getD_set i _ hi', if_pos rfl]
    refine ⟨parts', overflow',
      (if w < caps.getD i 0 - parts.getD i 0 then [i] else []) ++ rest, ?_, hf', ?_, by omega,
      ?_, ?_, fun j hj => ?_, fun h => ?_, fun h => ?_⟩
    · rw [List.foldl_cons, giveStep_eq _ _ _ _ hi', hfold]
      split <;> simp
    · rw [hsum, sum_set_getD _ hi', List.map_cons, List.sum_cons]
      ring
    · split
      · exact hsub.cons_cons i
      · exact hsub.cons i
    · intro j hj
      rcases List.mem_append.mp hj with hj | hj
      · split at hj
        · rw [List.mem_singleton.mp hj, hget]; omega
        · simp at hj
      · exact hlt j hj
    · simp only [List.map_cons, List.mem_cons, not_or] at hj
      rw [hout j hj.2, getD_set j _ hi', if_neg (Ne.symm hj.1)]
    · -- Either the head overflowed, and is full, or a later bag did.
      have hrest := hsub.length_le
      simp only [List.length_map] at hrest
      split
      · have := hdrop (by omega)
        simp; omega
      · simp; omega
    · have hhead := h _ List.mem_cons_self
      have htail : overflow' = _ := hzero fun x hx => by
        have hne : i ≠ x.1 := fun he => hil (he ▸ List.mem_map_of_mem hx)
        rw [getD_set _ _ hi', if_neg hne]
        exact h x (List.mem_cons_of_mem _ hx)
      simp only at hhead
      rw [htail]; omega

end Give

section Loop

variable {caps weights parts : List Int} {amount remaining : Int} {active : List Nat}

/-- One round of the loop, from a list of active bags that is not empty. -/
theorem Filling.round (h : Filling caps weights amount parts remaining active)
    (hr : 0 < remaining) (hne : active ≠ []) :
    ∃ allocated parts' overflow next,
      allocate remaining (active.map (weights.getD · 0)) = .ok allocated ∧
      (active.zip allocated).foldl (giveStep caps) (parts, 0, []) = (parts', overflow, next) ∧
      Filling caps weights amount parts' overflow next ∧
      (0 < overflow → next.length < active.length) ∧
      ((∀ i ∈ active, weights.getD i 0 = caps.getD i 0 - parts.getD i 0) →
        remaining ≤ (active.map (weights.getD · 0)).sum → overflow = 0) := by
  have hpos : ∀ w ∈ active.map (weights.getD · 0), 0 < w := by
    simp only [List.mem_map]; rintro _ ⟨i, hi, rfl⟩; exact h.weight i hi
  have hne' : active.map (weights.getD · 0) ≠ [] := by simpa using hne
  have hsum := List.sum_pos _ hpos hne'
  obtain ⟨allocated, hall, happ⟩ := allocate_apportions hr.le hne' hpos
  have hlen : active.length = allocated.length := by simpa using happ.length_eq
  have hfst : (active.zip allocated).map (·.1) = active := List.map_fst_zip hlen.le
  have hsnd : (active.zip allocated).map (·.2) = allocated := List.map_snd_zip hlen.ge
  obtain ⟨parts', overflow, next, hfold, hfits, hsum', hover, hsub, hlt, -, hdrop, hzero⟩ :=
    giveAll_spec (active.zip allocated) 0 [] h.fits (hfst.symm ▸ h.nodup)
      fun x hx => ⟨h.lt_length _ (List.of_mem_zip hx).1,
        happ.nonneg hsum hpos hr.le _ (List.of_mem_zip hx).2⟩
  rw [hfst] at hsub
  rw [hsnd, happ.sum_eq] at hsum'
  refine ⟨allocated, parts', overflow, next, hall, by simpa using hfold, ?_, fun ho => ?_,
    fun hw hle => hzero fun x hx => ?_⟩
  · exact
      { fits := hfits
        sum_eq := by have := h.sum_eq; omega
        remaining_nonneg := hover
        nodup := h.nodup.sublist hsub
        lt_length := fun i hi => h.lt_length i (hsub.subset hi)
        room := hlt
        weight := fun i hi => h.weight i (hsub.subset hi) }
  · simpa [← hlen] using hdrop ho
  · -- With the rooms as weights, nobody is given more than his weight.
    obtain ⟨k, hk, rfl⟩ := List.getElem_of_mem hx
    have hk' : k < active.length := by simp at hk; omega
    rw [List.getElem_zip]
    rw [← hw _ (List.getElem_mem hk')]
    have := (List.forall₂_iff_get.mp (happ.le_weight hsum hpos hle)).2 k (by simpa using hk')
      (hlen ▸ hk')
    simpa using this

/-- Once nothing remains, the loop returns its parts. -/
theorem distribute_done (rounds : Nat) : distribute caps rounds weights parts 0 active = .ok parts := by
  cases rounds <;> rfl

theorem sum_filter_pos {f : Nat → Int} {l : List Nat} (h : ∀ i ∈ l, 0 ≤ f i) :
    ((l.filter fun i => f i > 0).map f).sum = (l.map f).sum := by
  induction l with
  | nil => rfl
  | cons i l ih =>
    have hi := h i List.mem_cons_self
    have ih := ih fun j hj => h j (List.mem_cons_of_mem _ hj)
    by_cases hp : f i > 0
    · rw [List.filter_cons_of_pos (by simpa using hp)]; simp [ih]
    · rw [List.filter_cons_of_neg (by simpa using hp), ih, List.map_cons, List.sum_cons,
        show f i = 0 by omega, zero_add]

theorem sum_map_sub (f g : Nat → Int) (l : List Nat) :
    (l.map fun i => f i - g i).sum = (l.map f).sum - (l.map g).sum := by
  induction l with
  | nil => rfl
  | cons i l ih => simp only [List.map_cons, List.sum_cons, ih]; ring

theorem getD_map_zero (l : List Int) (i : Nat) : (l.map fun _ => (0 : Int)).getD i 0 = 0 := by
  simp only [List.getD_eq_getElem?_getD, List.getElem?_map]
  cases l[i]? <;> rfl

theorem map_range_getD (l : List Int) : (List.range l.length).map (l.getD · 0) = l :=
  List.ext_getElem (by simp) fun i _ hi => by simp [List.getElem?_eq_getElem hi]

theorem sum_rooms (h : Fits caps parts) :
    ((List.range caps.length).map fun i => caps.getD i 0 - parts.getD i 0).sum =
      caps.sum - parts.sum := by
  rw [sum_map_sub, map_range_getD, ← h.length_eq, map_range_getD]

/-- Without active bags every bag with room becomes active, and the round places everything. -/
theorem Filling.reactivated (h : Filling caps weights amount parts remaining [])
    (hle : amount ≤ caps.sum) (hr : 0 < remaining) :
    ∃ active' weights', reactivate caps weights parts [] = .ok (active', weights') ∧
      active' ≠ [] ∧ Filling caps weights' amount parts remaining active' ∧
      (∀ i ∈ active', weights'.getD i 0 = caps.getD i 0 - parts.getD i 0) ∧
      remaining ≤ (active'.map (weights'.getD · 0)).sum := by
  set rooms := (List.range caps.length).map fun i => caps.getD i 0 - parts.getD i 0 with hrooms
  set free := (List.range caps.length).filter fun i => caps.getD i 0 - parts.getD i 0 > 0 with hfree
  have hget : ∀ i < caps.length, rooms.getD i 0 = caps.getD i 0 - parts.getD i 0 := by
    intro i hi
    simp [hrooms, List.getElem?_range hi]
  have hmem : ∀ i ∈ free, i < caps.length ∧ caps.getD i 0 - parts.getD i 0 > 0 := by
    intro i hi
    simpa [hfree] using hi
  have htotal : (free.map (rooms.getD · 0)).sum = caps.sum - parts.sum := by
    rw [List.map_congr_left fun i hi => hget i (hmem i hi).1, ← sum_rooms h.fits]
    exact sum_filter_pos fun i _ => by have := h.fits.le_cap i; omega
  have hsum := h.sum_eq
  have hne : free ≠ [] := by
    intro hnil
    rw [hnil] at htotal
    simp at htotal
    omega
  refine ⟨free, rooms, by simp only [reactivate, if_true, ← hfree, hne, if_false, hrooms], hne, ?_,
    fun i hi => hget i (hmem i hi).1, by omega⟩
  exact
    { h with
      nodup := List.nodup_range.filter _
      lt_length := fun i hi => (hmem i hi).1
      room := fun i hi => by have := (hmem i hi).2; omega
      weight := fun i hi => by rw [hget i (hmem i hi).1]; exact (hmem i hi).2 }

/-- The loop ends within one round more than there are active bags, and one to see that it did:
every round that leaves something over has filled a bag. -/
theorem distribute_fills (hle : amount ≤ caps.sum) :
    ∀ {rounds : Nat} {weights parts : List Int} {remaining : Int} {active : List Nat},
      Filling caps weights amount parts remaining active → active.length + 1 ≤ rounds →
      ∃ result, distribute caps rounds weights parts remaining active = .ok result ∧
        Fits caps result ∧ result.sum = amount := by
  intro rounds
  induction rounds with
  | zero => intro _ _ _ _ _ hrounds; omega
  | succ rounds ih =>
    intro weights parts remaining active h hrounds
    rcases h.remaining_nonneg.eq_or_lt with h0 | hr
    · subst h0
      exact ⟨parts, distribute_done _, h.fits, by have := h.sum_eq; omega⟩
    by_cases hne : active = []
    · subst hne
      obtain ⟨active', weights', hre, hne', h', hw, hcap⟩ := h.reactivated hle hr
      obtain ⟨allocated, parts', overflow, next, hall, hfold, hf, -, hzero⟩ := h'.round hr hne'
      obtain rfl := hzero hw hcap
      refine ⟨parts', ?_, hf.fits, by have := hf.sum_eq; omega⟩
      simp only [distribute, hr, if_true, hre, Except.ok_bind, hall, hfold, distribute_done]
    · obtain ⟨allocated, parts', overflow, next, hall, hfold, hf, hdrop, -⟩ := h.round hr hne
      have hre : reactivate caps weights parts active = .ok (active, weights) := by
        simp [reactivate, hne]
      have hstep : distribute caps (rounds + 1) weights parts remaining active =
          distribute caps rounds weights parts' overflow next := by
        simp only [distribute, hr, if_true, hre, Except.ok_bind, hall, hfold]
      rw [hstep]
      rcases hf.remaining_nonneg.eq_or_lt with h0 | ho
      · subst h0
        exact ⟨parts', distribute_done _, hf.fits, by have := hf.sum_eq; omega⟩
      · exact ih hf (by have := hdrop ho; omega)

end Loop

/-- Whatever the weights are, the loop places an amount that the bags can hold. -/
theorem allocateCapped_fills {amount : Int} {caps : List Int} (weights : List Int)
    (hcaps : ∀ c ∈ caps, 0 ≤ c) (h0 : 0 ≤ amount) (hle : amount ≤ caps.sum) :
    ∃ parts, allocateCapped amount weights caps = .ok parts ∧ Fits caps parts ∧
      parts.sum = amount := by
  have hget := getD_map_zero caps
  have hcap : ∀ i, 0 ≤ caps.getD i 0 := fun i => by
    by_cases hi : i < caps.length
    · rw [List.getD_eq_getElem _ _ hi]; exact hcaps _ (List.getElem_mem hi)
    · rw [List.getD_eq_default _ _ (by omega)]
  have hmem : ∀ i ∈ (List.range caps.length).filter
      (fun i => weights.getD i 0 > 0 ∧ caps.getD i 0 > 0),
      i < caps.length ∧ weights.getD i 0 > 0 ∧ caps.getD i 0 > 0 := fun i hi => by
    simpa using hi
  refine distribute_fills hle ?_ ?_
  · exact
      { fits := ⟨by simp, fun i => (hget i).ge, fun i => by rw [hget]; exact hcap i⟩
        sum_eq := by simp
        remaining_nonneg := h0
        nodup := List.nodup_range.filter _
        lt_length := fun i hi => (hmem i hi).1
        room := fun i hi => by rw [hget]; exact (hmem i hi).2.2
        weight := fun i hi => (hmem i hi).2.1 }
  · have := List.length_filter_le (fun i => decide (weights.getD i 0 > 0 ∧ caps.getD i 0 > 0))
      (List.range caps.length)
    simp only [List.length_range] at this
    omega

/-! ## One payment -/

/-- What is left to declare, or is declared, at one VAT rate. -/
structure FiscalGroup where
  vatBps : Nat
  baseMinor : Int
  vatMinor : Int
  deriving DecidableEq, Repr

/-- The declarable state of a bill: a bag for every rate, and the service. -/
structure FiscalState where
  groups : List FiscalGroup
  serviceMinor : Int
  deriving DecidableEq, Repr

/-- The breakdown of one invoice. -/
structure FiscalInvoice where
  groups : List FiscalGroup
  serviceMinor : Int
  totalMinor : Int
  deriving DecidableEq, Repr

/-- `outstandingOf(state)`. -/
def outstandingOf (state : FiscalState) : Int :=
  (state.groups.map fun g => g.baseMinor + g.vatMinor).sum + state.serviceMinor

/-- The share of one group, cut into base and VAT. -/
def splitShare (group : FiscalGroup) (share : Int) : Except Err (Int × Int) :=
  let bucket := group.baseMinor + group.vatMinor
  if share > 0 ∧ bucket > 0 then
    if group.baseMinor > 0 ∧ group.vatMinor > 0 then do
      let parts ← allocate share [group.baseMinor, group.vatMinor]
      .ok (parts.getD 0 0, parts.getD 1 0)
    else if group.vatMinor > 0 then .ok (0, share)
    else .ok (share, 0)
  else .ok (0, 0)

/-- The body of `state.groups.forEach`: the invoice's group and the group that is left. -/
def drawGroup (group : FiscalGroup) (share : Int) : Except Err (FiscalGroup × FiscalGroup) := do
  let (baseShare, vatShare) ← splitShare group share
  .ok ({ vatBps := group.vatBps, baseMinor := baseShare, vatMinor := vatShare },
    { vatBps := group.vatBps, baseMinor := group.baseMinor - baseShare,
      vatMinor := group.vatMinor - vatShare })

/-- `allocatePayment(state, amount, { composition })`: the invoice and the remaining state. -/
def allocatePayment (state : FiscalState) (amount : Int) (composition : Option (List Int)) :
    Except Err (FiscalInvoice × FiscalState) :=
  let outstanding := outstandingOf state
  if amount < 0 then .error (.error "A payment cannot be negative")
  else if amount > outstanding then
    .error (.error s!"Payment {amount} exceeds the {outstanding} left to declare")
  else if amount = 0 then
    let emptyLines := state.groups.map fun g => { g with baseMinor := 0, vatMinor := 0 }
    .ok ({ groups := emptyLines, serviceMinor := 0, totalMinor := 0 }, state)
  else do
    let buckets := (state.groups.map fun g => g.baseMinor + g.vatMinor) ++ [state.serviceMinor]
    let weights := match composition with
      | some composition => (List.range buckets.length).map (composition.getD · 0)
      | none => buckets
    let parts ← allocateCapped amount weights buckets
    let serviceShare := parts.getD (buckets.length - 1) 0
    let drawn ← (state.groups.zip parts).mapM fun (group, share) => drawGroup group share
    .ok ({ groups := drawn.map (·.1), serviceMinor := serviceShare, totalMinor := amount },
      { groups := drawn.map (·.2), serviceMinor := state.serviceMinor - serviceShare })

/-- Bags that hold no negative amount. -/
structure FiscalGroup.Nonneg (g : FiscalGroup) : Prop where
  base : 0 ≤ g.baseMinor
  vat : 0 ≤ g.vatMinor

structure FiscalState.Nonneg (state : FiscalState) : Prop where
  groups : ∀ g ∈ state.groups, g.Nonneg
  service : 0 ≤ state.serviceMinor

/-- `taken` and `left` are two nonnegative pieces that make up the group `g`. -/
structure Cut (g taken left : FiscalGroup) : Prop where
  taken_nonneg : taken.Nonneg
  left_nonneg : left.Nonneg
  taken_rate : taken.vatBps = g.vatBps
  left_rate : left.vatBps = g.vatBps
  base : taken.baseMinor + left.baseMinor = g.baseMinor
  vat : taken.vatMinor + left.vatMinor = g.vatMinor

/-- The sum of what the groups hold, in base and VAT. -/
def groupsTotal (groups : List FiscalGroup) : Int :=
  (groups.map fun g => g.baseMinor + g.vatMinor).sum

/-- `Cut`, group by group. -/
inductive Cuts : List FiscalGroup → List FiscalGroup → List FiscalGroup → Prop where
  | nil : Cuts [] [] []
  | cons {g taken left : FiscalGroup} {gs ts ls : List FiscalGroup} :
      Cut g taken left → Cuts gs ts ls → Cuts (g :: gs) (taken :: ts) (left :: ls)

/-- The invoice and the remaining state cut every bag of `state` in two, and the invoice adds up
to `amount`. -/
structure Draws (state : FiscalState) (amount : Int) (invoice : FiscalInvoice)
    (remaining : FiscalState) : Prop where
  cuts : Cuts state.groups invoice.groups remaining.groups
  service : invoice.serviceMinor + remaining.serviceMinor = state.serviceMinor
  service_taken : 0 ≤ invoice.serviceMinor
  service_left : 0 ≤ remaining.serviceMinor
  total : groupsTotal invoice.groups + invoice.serviceMinor = amount
  total_eq : invoice.totalMinor = amount

section Draw

variable {g : FiscalGroup} (share : Int)

/-- A share within the bag splits into base and VAT within what there is of each. -/
theorem splitShare_spec (hg : g.Nonneg) (h0 : 0 ≤ share)
    (hle : share ≤ g.baseMinor + g.vatMinor) :
    ∃ b v, splitShare g share = .ok (b, v) ∧ 0 ≤ b ∧ 0 ≤ v ∧ b ≤ g.baseMinor ∧
      v ≤ g.vatMinor ∧ b + v = share := by
  have hb := hg.base
  have hv := hg.vat
  unfold splitShare
  by_cases hpos : share > 0 ∧ g.baseMinor + g.vatMinor > 0
  · simp only [hpos, and_self, if_true]
    by_cases hboth : g.baseMinor > 0 ∧ g.vatMinor > 0
    · have hw : ∀ w ∈ [g.baseMinor, g.vatMinor], 0 < w := by simpa using hboth
      have hsum := List.sum_pos _ hw (by simp)
      obtain ⟨parts, hall, happ⟩ := allocate_apportions h0 (by simp) hw
      have hlt := happ.le_weight hsum hw (by simpa using hle)
      have hnn := happ.nonneg hsum hw h0
      obtain ⟨b, v, rfl⟩ : ∃ b v, parts = [b, v] :=
        List.length_eq_two.mp (by simpa using happ.length_eq.symm)
      simp only [List.forall₂_cons, List.forall₂_nil_left_iff, and_true] at hlt
      simp only [List.mem_cons, List.not_mem_nil, or_false, forall_eq_or_imp, forall_eq] at hnn
      refine ⟨b, v, ?_, hnn.1, hnn.2, hlt.1, hlt.2, by simpa using happ.sum_eq⟩
      simp [hboth, hall]
    · simp only [hboth, if_false]
      by_cases hvat : g.vatMinor > 0
      · exact ⟨0, share, by simp [hvat], le_rfl, h0, hb, by omega, by omega⟩
      · exact ⟨share, 0, by simp [hvat], h0, le_rfl, by omega, hv, by omega⟩
  · exact ⟨0, 0, by simp [hpos], le_rfl, le_rfl, hb, hv, by omega⟩

theorem drawGroup_spec (hg : g.Nonneg) (h0 : 0 ≤ share) (hle : share ≤ g.baseMinor + g.vatMinor) :
    ∃ r, drawGroup g share = .ok r ∧ Cut g r.1 r.2 ∧ r.1.baseMinor + r.1.vatMinor = share := by
  obtain ⟨b, v, hs, hb0, hv0, hb, hv, hsum⟩ := splitShare_spec share hg h0 hle
  refine ⟨_, by simp [drawGroup, hs]; rfl, ?_, hsum⟩
  exact
    { taken_nonneg := ⟨hb0, hv0⟩
      left_nonneg := ⟨sub_nonneg.mpr hb, sub_nonneg.mpr hv⟩
      taken_rate := rfl
      left_rate := rfl
      base := by simp
      vat := by simp }

end Draw

theorem outstandingOf_eq (state : FiscalState) :
    outstandingOf state = groupsTotal state.groups + state.serviceMinor := rfl

theorem Fits.tail {c p : Int} {caps parts : List Int} (h : Fits (c :: caps) (p :: parts)) :
    Fits caps parts :=
  ⟨by simpa using h.length_eq, fun i => by simpa using h.nonneg (i + 1),
    fun i => by simpa using h.le_cap (i + 1)⟩

/-- The parts of the bags, the service last, cut every group. -/
theorem drawAll_spec {service : Int} : ∀ {groups : List FiscalGroup} {parts : List Int},
    (∀ g ∈ groups, g.Nonneg) →
    Fits ((groups.map fun g => g.baseMinor + g.vatMinor) ++ [service]) parts →
    ∃ drawn, (groups.zip parts).mapM (fun (group, share) => drawGroup group share) = .ok drawn ∧
      Cuts groups (drawn.map (·.1)) (drawn.map (·.2)) ∧
      groupsTotal (drawn.map (·.1)) + parts.getD groups.length 0 = parts.sum
  | [], [p], _, _ => ⟨[], rfl, .nil, by simp [groupsTotal]⟩
  | [], [], _, hf => absurd hf.length_eq (by simp)
  | [], _ :: _ :: _, _, hf => absurd hf.length_eq (by simp)
  | _ :: _, [], _, hf => absurd hf.length_eq (by simp)
  | g :: gs, p :: ps, hnn, hf => by
    obtain ⟨r, hr, hcut, hsum⟩ := drawGroup_spec p (hnn g List.mem_cons_self)
      (by simpa using hf.nonneg 0) (by simpa using hf.le_cap 0)
    obtain ⟨drawn, hd, hcuts, htot⟩ :=
      drawAll_spec (fun x hx => hnn x (List.mem_cons_of_mem _ hx)) (Fits.tail hf)
    refine ⟨r :: drawn, ?_, .cons hcut hcuts, ?_⟩
    · simp only [List.zip_cons_cons, List.mapM_cons, hr, Except.ok_bind, hd]
      rfl
    · simp only [groupsTotal, List.map_cons, List.sum_cons, List.length_cons,
        List.getD_cons_succ] at htot ⊢
      omega

/-- A positive payment within what is left never throws, and draws exactly its amount. -/
theorem allocatePayment_draws {state : FiscalState} {amount : Int}
    (composition : Option (List Int)) (hs : state.Nonneg) (h0 : 0 < amount)
    (hle : amount ≤ outstandingOf state) :
    ∃ invoice remaining, allocatePayment state amount composition = .ok (invoice, remaining) ∧
      Draws state amount invoice remaining := by
  set buckets := (state.groups.map fun g => g.baseMinor + g.vatMinor) ++ [state.serviceMinor]
    with hbuckets
  set weights := match composition with
    | some composition => (List.range buckets.length).map (composition.getD · 0)
    | none => buckets
    with hweights
  have hcaps : ∀ c ∈ buckets, 0 ≤ c := by
    simp only [hbuckets, List.mem_append, List.mem_map, List.mem_singleton]
    rintro c (⟨g, hg, rfl⟩ | rfl)
    · exact add_nonneg (hs.groups g hg).base (hs.groups g hg).vat
    · exact hs.service
  have hsum : buckets.sum = outstandingOf state := by
    simp [hbuckets, outstandingOf]
  obtain ⟨parts, hparts, hfits, htotal⟩ :=
    allocateCapped_fills weights hcaps h0.le (hsum ▸ hle)
  obtain ⟨drawn, hdrawn, hcuts, hdsum⟩ := drawAll_spec hs.groups hfits
  have hlast : buckets.length - 1 = state.groups.length := by simp [hbuckets]
  refine ⟨{ groups := drawn.map (·.1), serviceMinor := parts.getD (buckets.length - 1) 0,
            totalMinor := amount },
    { groups := drawn.map (·.2),
      serviceMinor := state.serviceMinor - parts.getD (buckets.length - 1) 0 }, ?_, ?_⟩
  · simp only [allocatePayment, if_neg (not_lt.mpr h0.le), if_neg (not_lt.mpr hle), if_neg h0.ne',
      ← hbuckets, ← hweights, hparts, Except.ok_bind, hdrawn]
  · have hlc := hfits.le_cap state.groups.length
    have hcap : buckets.getD state.groups.length 0 = state.serviceMinor := by
      simp [hbuckets]
    rw [hcap] at hlc
    exact
      { cuts := hcuts
        service := by simp
        service_taken := hfits.nonneg _
        service_left := by rw [hlast]; exact sub_nonneg.mpr hlc
        total := by simp only [hlast]; omega
        total_eq := rfl }

/-! ## A sequence of payments -/

/-- One payment to declare: its amount, and what its payer is known to have consumed. -/
structure Declared where
  amount : Int
  composition : Option (List Int)

/-- The payments one after the other, each on the state that the last one left. -/
def allocatePayments (state : FiscalState) :
    List Declared → Except Err (List FiscalInvoice × FiscalState)
  | [] => .ok ([], state)
  | p :: ps => do
    let (invoice, remaining) ← allocatePayment state p.amount p.composition
    let (invoices, final) ← allocatePayments remaining ps
    .ok (invoice :: invoices, final)

/-- Every payment is positive and within what is outstanding when its turn comes. -/
def Admissible (state : FiscalState) : List Declared → Prop
  | [] => True
  | p :: ps => 0 < p.amount ∧ p.amount ≤ outstandingOf state ∧
      ∀ invoice remaining, allocatePayment state p.amount p.composition = .ok (invoice, remaining) →
        Admissible remaining ps

/-- The base declared, or left to declare, at one rate. -/
def baseAt (rate : Nat) (groups : List FiscalGroup) : Int :=
  ((groups.filter (·.vatBps = rate)).map (·.baseMinor)).sum

/-- The VAT declared, or left to declare, at one rate. -/
def vatAt (rate : Nat) (groups : List FiscalGroup) : Int :=
  ((groups.filter (·.vatBps = rate)).map (·.vatMinor)).sum

/-- Payments, their invoices and the state they leave: every invoice has nonnegative parts that add
up to its payment, and with the remaining bags the invoices make up the initial ones. -/
structure ExactlyDeclared (state : FiscalState) (ps : List Declared) (invoices : List FiscalInvoice)
    (remaining : FiscalState) : Prop where
  left_nonneg : remaining.Nonneg
  invoice_nonneg : ∀ i ∈ invoices, (∀ g ∈ i.groups, g.Nonneg) ∧ 0 ≤ i.serviceMinor
  invoice_total : List.Forall₂ (fun p i => i.totalMinor = p.amount ∧
    groupsTotal i.groups + i.serviceMinor = p.amount) ps invoices
  base : ∀ rate, (invoices.map fun i => baseAt rate i.groups).sum + baseAt rate remaining.groups =
    baseAt rate state.groups
  vat : ∀ rate, (invoices.map fun i => vatAt rate i.groups).sum + vatAt rate remaining.groups =
    vatAt rate state.groups
  service : (invoices.map (·.serviceMinor)).sum + remaining.serviceMinor = state.serviceMinor

namespace Cuts

variable {gs ts ls : List FiscalGroup}

theorem taken_nonneg (h : Cuts gs ts ls) : ∀ g ∈ ts, g.Nonneg := by
  induction h with
  | nil => simp
  | cons hc _ ih => exact List.forall_mem_cons.mpr ⟨hc.taken_nonneg, ih⟩

theorem left_nonneg (h : Cuts gs ts ls) : ∀ g ∈ ls, g.Nonneg := by
  induction h with
  | nil => simp
  | cons hc _ ih => exact List.forall_mem_cons.mpr ⟨hc.left_nonneg, ih⟩

theorem baseAt_add (h : Cuts gs ts ls) (rate : Nat) :
    baseAt rate ts + baseAt rate ls = baseAt rate gs := by
  induction h with
  | nil => rfl
  | cons hc _ ih =>
    have hb := hc.base
    unfold baseAt at ih ⊢
    simp only [List.filter_cons, hc.taken_rate, hc.left_rate]
    split
    · simp only [List.map_cons, List.sum_cons]; omega
    · exact ih

theorem vatAt_add (h : Cuts gs ts ls) (rate : Nat) :
    vatAt rate ts + vatAt rate ls = vatAt rate gs := by
  induction h with
  | nil => rfl
  | cons hc _ ih =>
    have hv := hc.vat
    unfold vatAt at ih ⊢
    simp only [List.filter_cons, hc.taken_rate, hc.left_rate]
    split
    · simp only [List.map_cons, List.sum_cons]; omega
    · exact ih

theorem total_add (h : Cuts gs ts ls) : groupsTotal ts + groupsTotal ls = groupsTotal gs := by
  induction h with
  | nil => rfl
  | cons hc _ ih =>
    have hb := hc.base
    have hv := hc.vat
    simp only [groupsTotal, List.map_cons, List.sum_cons] at ih ⊢
    omega

end Cuts

theorem Draws.nonneg {state remaining : FiscalState} {amount : Int} {invoice : FiscalInvoice}
    (h : Draws state amount invoice remaining) : remaining.Nonneg :=
  ⟨h.cuts.left_nonneg, h.service_left⟩

theorem Draws.outstanding {state remaining : FiscalState} {amount : Int} {invoice : FiscalInvoice}
    (h : Draws state amount invoice remaining) :
    outstandingOf remaining = outstandingOf state - amount := by
  have h1 := h.cuts.total_add
  have h2 := h.service
  have h3 := h.total
  rw [outstandingOf_eq, outstandingOf_eq]
  omega

/-- One more payment in front. -/
theorem ExactlyDeclared.cons {state next remaining : FiscalState} {p : Declared}
    {ps : List Declared} {invoice : FiscalInvoice} {invoices : List FiscalInvoice}
    (hd : Draws state p.amount invoice next) (h : ExactlyDeclared next ps invoices remaining) :
    ExactlyDeclared state (p :: ps) (invoice :: invoices) remaining where
  left_nonneg := h.left_nonneg
  invoice_nonneg := List.forall_mem_cons.mpr
    ⟨⟨hd.cuts.taken_nonneg, hd.service_taken⟩, h.invoice_nonneg⟩
  invoice_total := .cons ⟨hd.total_eq, hd.total⟩ h.invoice_total
  base := fun rate => by
    have := hd.cuts.baseAt_add rate
    have := h.base rate
    simp only [List.map_cons, List.sum_cons]
    omega
  vat := fun rate => by
    have := hd.cuts.vatAt_add rate
    have := h.vat rate
    simp only [List.map_cons, List.sum_cons]
    omega
  service := by
    have := hd.service
    have := h.service
    simp only [List.map_cons, List.sum_cons]
    omega

/-- `Admissible` of a computed first payment. -/
theorem Admissible.cons {state remaining : FiscalState} {p : Declared} {ps : List Declared}
    {invoice : FiscalInvoice} (h0 : 0 < p.amount) (hle : p.amount ≤ outstandingOf state)
    (hp : allocatePayment state p.amount p.composition = .ok (invoice, remaining))
    (h : Admissible remaining ps) : Admissible state (p :: ps) := by
  refine ⟨h0, hle, fun i r hr => ?_⟩
  rw [hp] at hr
  cases hr
  exact h

theorem Admissible.take {state : FiscalState} {ps : List Declared} (h : Admissible state ps)
    (n : Nat) : Admissible state (ps.take n) := by
  induction n generalizing state ps with
  | zero => simp [Admissible]
  | succ n ih =>
    cases ps with
    | nil => exact h
    | cons p ps => exact ⟨h.1, h.2.1, fun i r hr => ih (h.2.2 i r hr)⟩

/-- The run of all the payments: nothing throws, and what is outstanding goes down by their sum. -/
theorem allocatePayments_declares {state : FiscalState} {ps : List Declared} (hs : state.Nonneg)
    (hp : Admissible state ps) :
    ∃ invoices remaining, allocatePayments state ps = .ok (invoices, remaining) ∧
      ExactlyDeclared state ps invoices remaining ∧
      outstandingOf remaining = outstandingOf state - (ps.map (·.amount)).sum := by
  induction ps generalizing state with
  | nil =>
    exact ⟨[], state, rfl,
      { left_nonneg := hs
        invoice_nonneg := by simp
        invoice_total := .nil
        base := by simp
        vat := by simp
        service := by simp }, by simp⟩
  | cons p ps ih =>
    obtain ⟨h0, hle, hrest⟩ := hp
    obtain ⟨invoice, next, halloc, hd⟩ := allocatePayment_draws p.composition hs h0 hle
    obtain ⟨invoices, remaining, hall, hx, hout⟩ := ih hd.nonneg (hrest _ _ halloc)
    refine ⟨invoice :: invoices, remaining, ?_, hx.cons hd, ?_⟩
    · simp only [allocatePayments, halloc, Except.ok_bind, hall]
    · rw [hout, hd.outstanding, List.map_cons, List.sum_cons]
      ring

/-- Bags that are not negative and add up to nothing are all empty. -/
theorem empty_of_outstanding {state : FiscalState} (hs : state.Nonneg)
    (h : outstandingOf state = 0) :
    (∀ g ∈ state.groups, g.baseMinor = 0 ∧ g.vatMinor = 0) ∧ state.serviceMinor = 0 := by
  have hnn : ∀ x ∈ state.groups.map (fun g => g.baseMinor + g.vatMinor), 0 ≤ x := by
    simp only [List.mem_map]
    rintro _ ⟨g, hg, rfl⟩
    exact add_nonneg (hs.groups g hg).base (hs.groups g hg).vat
  have hsum := List.sum_nonneg hnn
  have hsvc := hs.service
  unfold outstandingOf at h
  refine ⟨fun g hg => ?_, by omega⟩
  have hle := List.single_le_sum hnn _ (List.mem_map_of_mem (f := fun g : FiscalGroup =>
    g.baseMinor + g.vatMinor) hg)
  have := (hs.groups g hg).base
  have := (hs.groups g hg).vat
  omega

/-- Over every sequence of admissible payments, after every prefix of it: no call throws, and the
invoices with what remains are exactly the initial bags. Payments that add up to what was
outstanding leave every bag empty. -/
theorem allocatePayments_exact {state : FiscalState} {ps : List Declared} (hs : state.Nonneg)
    (hp : Admissible state ps) :
    (∀ n, ∃ invoices remaining, allocatePayments state (ps.take n) = .ok (invoices, remaining) ∧
      ExactlyDeclared state (ps.take n) invoices remaining) ∧
    ((ps.map (·.amount)).sum = outstandingOf state →
      ∃ invoices remaining, allocatePayments state ps = .ok (invoices, remaining) ∧
        (∀ g ∈ remaining.groups, g.baseMinor = 0 ∧ g.vatMinor = 0) ∧
        remaining.serviceMinor = 0) := by
  refine ⟨fun n => ?_, fun hall => ?_⟩
  · obtain ⟨invoices, remaining, hrun, hx, -⟩ := allocatePayments_declares hs (hp.take n)
    exact ⟨invoices, remaining, hrun, hx⟩
  · obtain ⟨invoices, remaining, hrun, hx, hout⟩ := allocatePayments_declares hs hp
    exact ⟨invoices, remaining, hrun, empty_of_outstanding hx.left_nonneg (by omega)⟩

/-- Two rates and a service. The first payer consumed only at the first rate, and asks it for more
than it holds; the second takes the rest. -/
theorem allocatePayments_exact_two :
    let state : FiscalState :=
      { groups := [⟨0, 40, 0⟩, ⟨1600, 100, 16⟩], serviceMinor := 14 }
    let ps : List Declared := [⟨70, some [5, 0, 0]⟩, ⟨100, none⟩]
    (∀ n, ∃ invoices remaining, allocatePayments state (ps.take n) = .ok (invoices, remaining) ∧
      ExactlyDeclared state (ps.take n) invoices remaining) ∧
    ∃ invoices remaining, allocatePayments state ps = .ok (invoices, remaining) ∧
      (∀ g ∈ remaining.groups, g.baseMinor = 0 ∧ g.vatMinor = 0) ∧
      remaining.serviceMinor = 0 := by
  intro state ps
  have hs : state.Nonneg := ⟨by simp [state]; exact ⟨⟨by decide, by decide⟩, by decide, by decide⟩,
    by decide⟩
  have hp : Admissible state ps :=
    .cons (by decide) (by decide)
      (show allocatePayment state 70 (some [5, 0, 0]) =
        .ok (⟨[⟨0, 40, 0⟩, ⟨1600, 23, 4⟩], 3, 70⟩, ⟨[⟨0, 0, 0⟩, ⟨1600, 77, 12⟩], 11⟩) by decide)
      ⟨by decide, by decide, fun _ _ _ => trivial⟩
  exact ⟨(allocatePayments_exact hs hp).1, (allocatePayments_exact hs hp).2 (by decide)⟩

end Splite
