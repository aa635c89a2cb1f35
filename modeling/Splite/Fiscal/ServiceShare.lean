import Splite.Fiscal.Bags

/-!
# The service of a draft (`services/fiscalInvoiceBuilder.js`)

The service is the last bag. A prorated draft divides its payment by the room of all the bags. An itemised
one asks the service for nothing, and so the service gets of it only what the bags at the rates of its lines
cannot hold.

* `allocateCapped_prorated`: to divide by what the bags hold is to ask no bag for anything.
* `buildDraft_service`: the service of a draft is its part of what the bags asked for cannot hold.
* `floor_or_ceil_iff`: when a smaller quota that is rounded is the floor or the ceiling of a greater one.
* `service_share_iff`: the service of a draft is in proportion to the payment exactly when its part of what
  is left over happens to be.
-/

namespace Splite

open Apportion

/-! ## A prorated payment -/

/-- To divide by what the bags hold is to ask no bag for anything, and divide by their room. -/
theorem allocateCapped_prorated (amount : Int) (caps : List Int) :
    allocateCapped amount caps caps = allocateCapped amount [] caps := by
  have hzero := getD_map_zero caps
  have hrooms : ((List.range caps.length).map fun i =>
      caps.getD i 0 - (caps.map fun _ => (0 : Int)).getD i 0) = caps := by
    simp only [hzero, sub_zero]
    exact map_range_getD caps
  have hfree : ((List.range caps.length).filter fun i =>
      caps.getD i 0 - (caps.map fun _ => (0 : Int)).getD i 0 > 0) =
      (List.range caps.length).filter fun i => caps.getD i 0 > 0 ∧ caps.getD i 0 > 0 := by
    refine List.filter_congr fun i _ => decide_eq_decide.mpr ?_
    rw [hzero, sub_zero, and_self_iff]
  have hnone : ((List.range caps.length).filter fun i =>
      ([] : List Int).getD i 0 > 0 ∧ caps.getD i 0 > 0) = [] := by
    simp
  unfold allocateCapped
  rw [hnone]
  set active := (List.range caps.length).filter fun i => caps.getD i 0 > 0 ∧ caps.getD i 0 > 0
  have hsame : reactivate caps caps (caps.map fun _ => 0) active =
      reactivate caps [] (caps.map fun _ => 0) [] := by
    unfold reactivate
    rw [hrooms, hfree, if_pos rfl]
    by_cases hne : active = []
    · rw [if_pos hne]
    · rw [if_neg hne, if_neg hne]
  simp only [distribute, hsame]

/-! ## The service of a draft -/

/-- What a draft asks the bags for: what was claimed at each rate, or nothing. -/
def FiscalState.asked (state : FiscalState) (lineBasis : LineBasis) (lines : List SourceLine) : List Int :=
  if lineBasis = .itemised then compositionFor state.groups lines else []

/-- What the bags that are asked for cannot hold of a payment. -/
def FiscalState.spill (state : FiscalState) (lineBasis : LineBasis) (lines : List SourceLine)
    (paidMinor : Int) : Int :=
  paidMinor - held state.bags (wantedBags state.bags (state.asked lineBasis lines))

/-- The room of the other bags, of which the service is the last. -/
def FiscalState.otherRooms (state : FiscalState) (lineBasis : LineBasis) (lines : List SourceLine) :
    List Int :=
  (otherBags state.bags (state.asked lineBasis lines)).map (state.bags.getD · 0)

section Service

variable {state remaining : FiscalState} {paidMinor : Int} {lineBasis : LineBasis}
  {lines : List SourceLine} {tableName : Option String} {draft : InvoiceDraft}

theorem service_eq : state.bags.getD state.groups.length 0 = state.serviceMinor := by
  unfold FiscalState.bags
  rw [List.getD_append_right _ _ _ _ (by simp)]
  simp

theorem asked_service : (state.asked lineBasis lines).getD state.groups.length 0 = 0 := by
  unfold FiscalState.asked compositionFor
  split
  · rw [List.getD_append_right _ _ _ _ (by simp)]
    simp
  · rfl

/-- The service is the last of the other bags. -/
theorem otherBags_eq (hservice : 0 < state.serviceMinor) : ∃ first,
    otherBags state.bags (state.asked lineBasis lines) = first ++ [state.groups.length] := by
  refine ⟨(List.range state.groups.length).filter fun i =>
    ¬(state.asked lineBasis lines).getD i 0 > 0 ∧ state.bags.getD i 0 > 0, ?_⟩
  have hlen : state.bags.length = state.groups.length + 1 := by simp [FiscalState.bags]
  unfold otherBags
  rw [hlen, List.range_succ, List.filter_append, List.filter_singleton, asked_service, service_eq]
  simp [hservice]

theorem otherRooms_eq (hservice : 0 < state.serviceMinor) : ∃ first,
    state.otherRooms lineBasis lines = first ++ [state.serviceMinor] ∧ ∀ w ∈ first, 0 < w := by
  obtain ⟨first, hfirst⟩ := @otherBags_eq state lineBasis lines hservice
  refine ⟨first.map (state.bags.getD · 0), ?_, fun w hw => ?_⟩
  · unfold FiscalState.otherRooms
    rw [hfirst, List.map_append, List.map_singleton, service_eq]
  · obtain ⟨i, hi, rfl⟩ := List.mem_map.mp hw
    exact (mem_otherBags.mp (hfirst ▸ List.mem_append_left _ hi)).2.2

/-- The parts that a draft draws, of which the service is the last. -/
theorem buildDraft_placed (h0 : 0 < paidMinor)
    (h : buildDraft state paidMinor lineBasis lines tableName = .ok (draft, remaining)) :
    ∃ parts, Placed state.bags (state.asked lineBasis lines) paidMinor parts ∧
      draft.serviceMinor = parts.getD state.groups.length 0 := by
  obtain ⟨hle, -, invoice, hallocate, hof⟩ := buildDraft_ok h
  have hsum : state.bags.sum = outstandingOf state := by simp [FiscalState.bags, outstandingOf]
  have hlen : (compositionFor state.groups lines).length = state.bags.length := by
    simp [compositionFor, FiscalState.bags]
  obtain ⟨parts, hparts, -, -, hplaced⟩ :=
    @allocateCapped_places paidMinor state.bags (state.asked lineBasis lines) h0.le (hsum ▸ hle)
  refine ⟨parts, hplaced, ?_⟩
  unfold allocatePayment at hallocate
  simp only [if_neg (not_lt.mpr h0.le), if_neg (not_lt.mpr hle), if_neg h0.ne'] at hallocate
  obtain ⟨parts', hparts', hallocate⟩ := Except.bind_eq_ok.mp hallocate
  obtain ⟨drawn, -, hallocate⟩ := Except.bind_eq_ok.mp hallocate
  obtain ⟨rfl, -⟩ := Prod.mk.inj (Except.ok.inj hallocate)
  obtain rfl : parts' = parts := by
    refine Except.ok.inj (hparts'.symm.trans ?_)
    show allocateCapped paidMinor _ state.bags = _
    rw [← hparts]
    unfold FiscalState.asked
    by_cases hitemised : lineBasis = .itemised
    · simp only [hitemised, if_true]
      show allocateCapped paidMinor ((List.range state.bags.length).map
        ((compositionFor state.groups lines).getD · 0)) _ = _
      rw [← hlen, map_range_getD]
    · simp only [hitemised, if_false]
      exact allocateCapped_prorated paidMinor state.bags
  rw [hof.service]
  simp

/-- The service of a draft is nothing while the bags asked for hold the payment, and else its part of what
they cannot hold. -/
theorem buildDraft_service (hservice : 0 < state.serviceMinor) (h0 : 0 < paidMinor)
    (h : buildDraft state paidMinor lineBasis lines tableName = .ok (draft, remaining)) :
    draft.serviceMinor =
      let spill := state.spill lineBasis lines paidMinor
      let rooms := state.otherRooms lineBasis lines
      if spill ≤ 0 then 0
      else spill * state.serviceMinor / rooms.sum +
        if Raised spill rooms (rooms.length - 1) then 1 else 0 := by
  obtain ⟨parts, hplaced, hpart⟩ := buildDraft_placed h0 h
  obtain ⟨first, hothers⟩ := @otherBags_eq state lineBasis lines hservice
  obtain ⟨rooms, hrooms, hpos⟩ := @otherRooms_eq state lineBasis lines hservice
  rw [hpart]
  cases hplaced with
  | within hle hrest =>
    have hover : state.spill lineBasis lines paidMinor ≤ 0 := sub_nonpos.mpr hle
    dsimp only
    rw [if_pos hover]
    refine hrest _ fun hmem => ?_
    have := (mem_wantedBags.mp hmem).2.1
    rw [asked_service] at this
    omega
  | @beyond allocated hover hrest hdivide hgive =>
    have hover : ¬state.spill lineBasis lines paidMinor ≤ 0 := not_le.mpr (sub_pos.mpr hover)
    have hk : first.length < (otherBags state.bags (state.asked lineBasis lines)).length := by
      rw [hothers]
      simp
    have hlast : (otherBags state.bags (state.asked lineBasis lines))[first.length] =
        state.groups.length := by
      simp [hothers]
    have hlen : (state.otherRooms lineBasis lines).length = first.length + 1 := by
      unfold FiscalState.otherRooms
      rw [hothers]
      simp
    have hgot := hgive first.length hk
    rw [hlast] at hgot
    have hall : ∀ w ∈ state.otherRooms lineBasis lines, 0 < w := by
      rw [hrooms]
      intro w hw
      rcases List.mem_append.mp hw with hw | hw
      · exact hpos w hw
      · exact List.mem_singleton.mp hw ▸ hservice
    have hroom : (state.otherRooms lineBasis lines).getD first.length 0 = state.serviceMinor := by
      have hrlen : rooms.length = first.length := by
        have := congrArg List.length hrooms
        simp only [hlen, List.length_append, List.length_singleton] at this
        omega
      rw [hrooms, ← hrlen, List.getD_append_right _ _ _ _ le_rfl]
      simp
    dsimp only
    rw [hgot, if_neg hover, hlen, Nat.add_sub_cancel,
      allocate_getD (not_le.mp hover).le hall hdivide (by omega)]
    congr 2
    exact congrArg (_ * ·) hroom

end Service

/-! ## In proportion -/

/-- `part` is the floor or the ceiling of `amount * weight / total`. -/
def InShare (part amount weight total : Int) : Prop :=
  part = amount * weight / total ∨ part = -(-(amount * weight) / total)

instance (part amount weight total : Int) : Decidable (InShare part amount weight total) :=
  inferInstanceAs (Decidable (_ ∨ _))

/-- The part of the service in what the bags asked for cannot hold has the floor of its part in the whole
payment, or has one less and is raised. -/
def FiscalState.ServiceFollows (state : FiscalState) (lineBasis : LineBasis) (lines : List SourceLine)
    (paidMinor : Int) : Prop :=
  let spill := state.spill lineBasis lines paidMinor
  let rooms := state.otherRooms lineBasis lines
  let proportion := paidMinor * state.serviceMinor / outstandingOf state
  if spill ≤ 0 then proportion = 0
  else
    spill * state.serviceMinor / rooms.sum = proportion ∨
      spill * state.serviceMinor / rooms.sum + 1 = proportion ∧ Raised spill rooms (rooms.length - 1)

instance (state : FiscalState) (lineBasis : LineBasis) (lines : List SourceLine) (paidMinor : Int) :
    Decidable (state.ServiceFollows lineBasis lines paidMinor) := by
  unfold FiscalState.ServiceFollows
  infer_instance

section Quotas

variable {x y a b : Int}

theorem floor_mono (ha : 0 < a) (hb : 0 < b) (h : x * b ≤ y * a) : x / a ≤ y / b := by
  rw [Int.le_ediv_iff_mul_le hb]
  have hx : x / a * a ≤ x := Int.ediv_mul_le x ha.ne'
  have hxb : x / a * a * b ≤ x * b := mul_le_mul_of_nonneg_right hx hb.le
  refine le_of_mul_le_mul_right (?_ : x / a * b * a ≤ y * a) ha
  calc x / a * b * a = x / a * a * b := by ring
    _ ≤ x * b := hxb
    _ ≤ y * a := h

theorem ceil_eq (hb : 0 < b) : -(-y / b) = y / b + if y % b = 0 then 0 else 1 := by
  rw [Int.neg_ediv, Int.sign_eq_one_of_pos hb]
  split <;> split <;> rename_i hdvd hmod <;> rw [Int.dvd_iff_emod_eq_zero] at hdvd <;> omega

/-- A quota that is no greater than another one, rounded down or raised from a remainder, is the floor or
the ceiling of the other exactly when their floors are equal, or one apart and it is raised. -/
theorem floor_or_ceil_iff {c : Prop} [Decidable c] (ha : 0 < a) (hb : 0 < b) (h : x * b ≤ y * a)
    (hc : c → 0 < x % a) :
    ((x / a + if c then 1 else 0) = y / b ∨ (x / a + if c then 1 else 0) = -(-y / b)) ↔
      x / a = y / b ∨ x / a + 1 = y / b ∧ c := by
  have hle := floor_mono ha hb h
  -- Two equal floors of which the greater quota leaves no remainder are the same quota.
  have hexact : x / a = y / b → y % b = 0 → ¬c := by
    intro heq hmod hraised
    have hx := Int.mul_ediv_add_emod x a
    have hy := Int.mul_ediv_add_emod y b
    rw [hmod, add_zero] at hy
    have hpos := mul_pos (hc hraised) hb
    have hyx : y * a = a * (x / a) * b := by
      calc y * a = b * (y / b) * a := by rw [hy]
        _ = a * (x / a) * b := by rw [heq]; ring
    have hxb : x * b = a * (x / a) * b + x % a * b := by
      calc x * b = (a * (x / a) + x % a) * b := by rw [hx]
        _ = a * (x / a) * b + x % a * b := by ring
    omega
  rw [ceil_eq hb]
  by_cases hraised : c
  · rw [if_pos hraised, and_iff_left hraised]
    constructor
    · intro heq
      split at heq <;> omega
    · rintro (heq | heq)
      · have hmod : ¬y % b = 0 := fun hmod => hexact heq hmod hraised
        rw [if_neg hmod]
        omega
      · omega
  · rw [if_neg hraised]
    simp only [hraised, and_false, or_false, add_zero]
    constructor
    · intro heq
      split at heq <;> omega
    · exact .inl

end Quotas

section Draft

variable {state remaining : FiscalState} {paidMinor : Int} {lineBasis : LineBasis}
  {lines : List SourceLine} {tableName : Option String} {draft : InvoiceDraft}

/-- A party that is raised leaves a remainder. -/
theorem Raised.emod_pos {total : Int} {weights : List Int} {i : Nat} (ht : 0 ≤ total)
    (hpos : ∀ w ∈ weights, 0 < w) (hi : i < weights.length) (h : Raised total weights i) :
    0 < total * weights.getD i 0 % weights.sum := by
  have hne : weights ≠ [] := fun hnil => by simp [hnil] at hi
  have hs : 0 < weights.sum := List.sum_pos _ hpos hne
  obtain ⟨parts, hparts, happ⟩ := allocate_apportions ht hne hpos
  have hnear := (happ.near_getD hi).2
  rw [allocate_getD ht hpos hparts hi, if_pos h] at hnear
  have hdiv := Int.mul_ediv_add_emod (total * weights.getD i 0) weights.sum
  have hexpand : (total * weights.getD i 0 / weights.sum + 1) * weights.sum =
      weights.sum * (total * weights.getD i 0 / weights.sum) + weights.sum := by ring
  omega

/-- The part of what is left over is no greater than the part of the whole payment. -/
theorem spill_le (h0 : 0 < paidMinor) (hle : paidMinor ≤ outstandingOf state) :
    state.spill lineBasis lines paidMinor * outstandingOf state ≤
      paidMinor * (state.otherRooms lineBasis lines).sum := by
  have hsum : state.bags.sum = outstandingOf state := by simp [FiscalState.bags, outstandingOf]
  have hheld := @sum_le_held state.bags (state.asked lineBasis lines)
  rw [hsum] at hheld
  set wanted := held state.bags (wantedBags state.bags (state.asked lineBasis lines)) with hwanted
  have hrooms : outstandingOf state - wanted ≤ (state.otherRooms lineBasis lines).sum := by
    show _ ≤ held state.bags (otherBags state.bags (state.asked lineBasis lines))
    omega
  have hw : 0 ≤ wanted := by
    refine List.sum_nonneg fun x hx => ?_
    obtain ⟨i, hi, rfl⟩ := List.mem_map.mp hx
    exact (mem_wantedBags.mp hi).2.2.le
  calc (paidMinor - wanted) * outstandingOf state
      = paidMinor * outstandingOf state - wanted * outstandingOf state := by ring
    _ ≤ paidMinor * outstandingOf state - wanted * paidMinor :=
        sub_le_sub_left (mul_le_mul_of_nonneg_left hle hw) _
    _ = paidMinor * (outstandingOf state - wanted) := by ring
    _ ≤ paidMinor * (state.otherRooms lineBasis lines).sum :=
        mul_le_mul_of_nonneg_left hrooms h0.le

theorem paid_nonneg (h : buildDraft state paidMinor lineBasis lines tableName = .ok (draft, remaining)) :
    0 ≤ paidMinor := by
  obtain ⟨-, -, invoice, hallocate, -⟩ := buildDraft_ok h
  by_contra hneg
  unfold allocatePayment at hallocate
  simp only [if_pos (not_le.mp hneg)] at hallocate
  cases hallocate

/-- A draft of nothing has no service. -/
theorem buildDraft_nothing (h : buildDraft state 0 lineBasis lines tableName = .ok (draft, remaining)) :
    draft.serviceMinor = 0 := by
  obtain ⟨hle, -, invoice, hallocate, hof⟩ := buildDraft_ok h
  unfold allocatePayment at hallocate
  simp only [lt_irrefl, if_false, if_neg (not_lt.mpr hle), if_true] at hallocate
  obtain ⟨rfl, -⟩ := Prod.mk.inj (Except.ok.inj hallocate)
  exact hof.service

theorem serviceFollows_prorated (h0 : 0 ≤ paidMinor) (hbags : ∀ bag ∈ state.bags, 0 ≤ bag)
    (hbasis : lineBasis ≠ .itemised) : state.ServiceFollows lineBasis lines paidMinor := by
  have hasked : state.asked lineBasis lines = [] := if_neg hbasis
  have hspill : state.spill lineBasis lines paidMinor = paidMinor := by
    unfold FiscalState.spill wantedBags held
    rw [hasked]
    simp
  have hrooms : (state.otherRooms lineBasis lines).sum = outstandingOf state := by
    have hget : ∀ i, 0 ≤ state.bags.getD i 0 := fun i => by
      by_cases hi : i < state.bags.length
      · rw [List.getD_eq_getElem _ _ hi]
        exact hbags _ (List.getElem_mem hi)
      · rw [List.getD_eq_default _ _ (not_lt.mp hi)]
    unfold FiscalState.otherRooms otherBags
    rw [hasked, sum_filter_of_zero fun i _ hnone => by
      have := hget i
      simp only [List.getD_nil, gt_iff_lt, lt_irrefl, not_false_eq_true, true_and] at hnone
      omega, map_range_getD]
    simp [FiscalState.bags, outstandingOf]
  unfold FiscalState.ServiceFollows
  dsimp only
  rw [hspill, hrooms]
  split
  · rename_i hle
    rw [le_antisymm hle h0, zero_mul, Int.zero_ediv]
  · exact .inl rfl

/-- The service of a draft is the floor or the ceiling of its part of the payment exactly when its part of
what the bags asked for cannot hold happens to be. That is always so of a draft that is not itemised, while
no bag is overdrawn. -/
theorem service_share_iff (hservice : 0 < state.serviceMinor)
    (h : buildDraft state paidMinor lineBasis lines tableName = .ok (draft, remaining)) :
    (InShare draft.serviceMinor paidMinor state.serviceMinor (outstandingOf state) ↔
        state.ServiceFollows lineBasis lines paidMinor) ∧
      ((∀ bag ∈ state.bags, 0 ≤ bag) → lineBasis ≠ .itemised →
        InShare draft.serviceMinor paidMinor state.serviceMinor (outstandingOf state)) := by
  have h0 := paid_nonneg h
  have hiff : InShare draft.serviceMinor paidMinor state.serviceMinor (outstandingOf state) ↔
      state.ServiceFollows lineBasis lines paidMinor := by
    unfold InShare FiscalState.ServiceFollows
    dsimp only
    rcases h0.eq_or_lt with rfl | h0
    · have hspill : state.spill lineBasis lines 0 ≤ 0 := by
        refine sub_nonpos.mpr (List.sum_nonneg fun x hx => ?_)
        obtain ⟨i, hi, rfl⟩ := List.mem_map.mp hx
        exact (mem_wantedBags.mp hi).2.2.le
      rw [buildDraft_nothing h, if_pos hspill]
      simp
    have hle := (buildDraft_ok h).1
    have hout : 0 < outstandingOf state := h0.trans_le hle
    have hquota : 0 ≤ paidMinor * state.serviceMinor / outstandingOf state :=
      Int.ediv_nonneg (mul_nonneg h0.le hservice.le) hout.le
    rw [buildDraft_service hservice h0 h]
    dsimp only
    by_cases hspill : state.spill lineBasis lines paidMinor ≤ 0
    · rw [if_pos hspill, if_pos hspill, ceil_eq hout]
      constructor
      · intro heq
        split at heq <;> omega
      · exact fun heq => .inl heq.symm
    · rw [if_neg hspill, if_neg hspill]
      obtain ⟨first, hrooms, hfirst⟩ := @otherRooms_eq state lineBasis lines hservice
      have hpos : ∀ w ∈ state.otherRooms lineBasis lines, 0 < w := by
        rw [hrooms]
        intro w hw
        rcases List.mem_append.mp hw with hw | hw
        · exact hfirst w hw
        · exact List.mem_singleton.mp hw ▸ hservice
      have hlast : (state.otherRooms lineBasis lines).getD
          ((state.otherRooms lineBasis lines).length - 1) 0 = state.serviceMinor := by
        rw [hrooms, List.length_append, List.length_singleton, Nat.add_sub_cancel,
          List.getD_append_right _ _ _ _ le_rfl]
        simp
      have hne : state.otherRooms lineBasis lines ≠ [] := by
        rw [hrooms]
        simp
      have hlt := List.length_pos_of_ne_nil hne
      refine floor_or_ceil_iff (List.sum_pos _ hpos hne) hout ?_ fun hraised => ?_
      · have hspill_le := mul_le_mul_of_nonneg_right
          (@spill_le state paidMinor lineBasis lines h0 hle) hservice.le
        linarith
      · have hmod := hraised.emod_pos (not_le.mp hspill).le hpos (by omega)
        rwa [hlast] at hmod
  exact ⟨hiff, fun hbags hbasis => hiff.mpr (serviceFollows_prorated h0 hbags hbasis)⟩

end Draft

/-! ## A loaf without service -/

/-- A taxed burger and an exempt loaf, with a service of 10 %. -/
def supperState : FiscalState := ⟨[⟨0, 20000, 0⟩, ⟨1600, 50000, 8000⟩], 7000⟩

def loaf : SourceLine := ⟨⟨41, "Harina", 1, 20000, 20000, .exempt, 0⟩, 20000, 20000⟩

def burger : SourceLine := ⟨⟨40, "Hamburguesa", 1, 50000, 50000, .taxable, 1600⟩, 50000, 50000⟩

theorem supper_in_share : ∃ draft remaining,
    buildDraft supperState 20000 .prorated [burger, loaf] none = .ok (draft, remaining) ∧
    0 < supperState.serviceMinor ∧ InShare draft.serviceMinor 20000 7000 85000 := by
  cases h : buildDraft supperState 20000 .prorated [burger, loaf] none with
  | error e =>
    have hok : (buildDraft supperState 20000 .prorated [burger, loaf] none).isOk = true := by decide +kernel
    rw [h] at hok
    cases hok
  | ok x =>
    exact ⟨x.1, x.2, rfl, by decide, (service_share_iff (by decide) h).2 (by decide) (by decide)⟩

/-- Whoever had the loaf pays for it and declares no service, of which 1647 are in proportion. -/
theorem loaf_without_service : ∃ draft remaining,
    buildDraft supperState 20000 .itemised [loaf] none = .ok (draft, remaining) ∧
    20000 ≤ outstandingOf supperState ∧
    ¬InShare draft.serviceMinor 20000 supperState.serviceMinor (outstandingOf supperState) := by
  cases h : buildDraft supperState 20000 .itemised [loaf] none with
  | error e =>
    have hok : (buildDraft supperState 20000 .itemised [loaf] none).isOk = true := by decide +kernel
    rw [h] at hok
    cases hok
  | ok x =>
    refine ⟨x.1, x.2, rfl, by decide, ?_⟩
    have hnot : ∀ y ∈ (buildDraft supperState 20000 .itemised [loaf] none).toOption,
        ¬InShare y.1.serviceMinor 20000 supperState.serviceMinor (outstandingOf supperState) := by
      decide +kernel
    exact hnot x (by rw [h]; rfl)

end Splite
