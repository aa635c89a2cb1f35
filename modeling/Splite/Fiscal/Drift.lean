import Splite.Fiscal.Invoicing
import Splite.Ledger.Totals

/-!
# The VAT of one invoice (`services/fiscalAllocation.js`)

A share of a bag is cut into base and VAT in the proportion of what the bag still holds, and not at the
rate. What the roundings of earlier payments left over in the bag is cut with it.

* `splitShare_eq`: the VAT of a share is its part of the bag's VAT, rounded to the nearest.
* `withinACentimo_iff`: it is within one céntimo of the rate exactly when the bag is in proportion.
* `inProportion_of_small`: an excess that is small enough does no harm.
* `vat_drift_iff`: the same for every invoice of a run of payments.
* `crumbs_drift`: four payments of three céntimos, and what they leave.
-/

namespace Splite

variable {g : FiscalGroup} {share : Int}

/-! ## The cut of a share -/

/-- The part of `weight / total` of a share, a half rounded down. -/
def partOf (share weight total : Int) : Int := (2 * share * weight + total - 1) / (2 * total)

theorem partOf_eq {weight total q r : Int} (h : share * weight = total * q + r) (hr : 0 ≤ r)
    (hlt : r < total) : partOf share weight total = if total < 2 * r then q + 1 else q := by
  have hnum : 2 * share * weight + total - 1 = (2 * r + total - 1) + 2 * total * q := by
    linear_combination 2 * h
  unfold partOf
  rw [hnum, Int.add_mul_ediv_left _ _ (by omega)]
  split
  · rw [show 2 * r + total - 1 = (2 * r - total - 1) + 2 * total * 1 by ring,
      Int.add_mul_ediv_left _ _ (by omega), Int.ediv_eq_zero_of_lt (by omega) (by omega)]
    omega
  · rw [Int.ediv_eq_zero_of_lt (by omega) (by omega)]
    omega

theorem remainderOrder_pair (r r' : Int) :
    remainderOrder [r, r'] = if r' ≤ r then [0, 1] else [1, 0] := by
  have hle : remainderLE (0, r) (1, r') ↔ r' ≤ r := by
    unfold remainderLE
    omega
  show (([(0, r), (1, r')] : List (Nat × Int)).insertionSort remainderLE).map (·.1) = _
  simp only [List.insertionSort, List.foldr_cons, List.foldr_nil, List.orderedInsert, hle]
  split <;> rfl

/-- Of two weights, the second one gets its part, and the first one the rest. -/
theorem allocate_pair {a b : Int} (hs : 0 ≤ share) (ha : 0 < a) (hb : 0 < b) :
    allocate share [a, b] = .ok [share - partOf share b (a + b), partOf share b (a + b)] := by
  have ht : 0 < a + b := by omega
  have hunfold : allocate share [a, b] = .ok (handOut
      (remainderOrder [share * a % (a + b), share * b % (a + b)])
      (share - (share * a / (a + b) + share * b / (a + b))).toNat 0
      [share * a / (a + b), share * b / (a + b)]) := by
    unfold allocate
    rw [if_neg (not_lt.mpr hs), if_neg (by simp), if_neg (by simp; omega)]
    simp
  have hmul : share * a + share * b = share * (a + b) := by ring
  have hqa := Int.mul_ediv_add_emod (share * a) (a + b)
  have hqb := Int.mul_ediv_add_emod (share * b) (a + b)
  have hra := Int.emod_nonneg (share * a) ht.ne'
  have hrb := Int.emod_nonneg (share * b) ht.ne'
  have hra' := Int.emod_lt_of_pos (share * a) ht
  have hrb' := Int.emod_lt_of_pos (share * b) ht
  rw [hunfold, remainderOrder_pair, partOf_eq hqb.symm hrb hrb']
  generalize share * a / (a + b) = qa at *
  generalize share * b / (a + b) = qb at *
  generalize share * a % (a + b) = ra at *
  generalize share * b % (a + b) = rb at *
  generalize a + b = t at *
  have hleft : t * (share - (qa + qb)) = ra + rb := by linear_combination -hmul - hqa - hqb
  -- The remainders make up a whole unit or none.
  have hunits : share - (qa + qb) = 0 ∨ share - (qa + qb) = 1 := by
    have hlow : 0 ≤ share - (qa + qb) := by
      by_contra hneg
      have := mul_le_mul_of_nonneg_left (show share - (qa + qb) ≤ -1 by omega) ht.le
      omega
    have hhigh : share - (qa + qb) < 2 := by
      by_contra hbig
      have := mul_le_mul_of_nonneg_left (show 2 ≤ share - (qa + qb) by omega) ht.le
      omega
    omega
  rcases hunits with h0 | h1
  · rw [h0, mul_zero] at hleft
    rw [h0, if_neg (show ¬t < 2 * rb by omega)]
    show Except.ok [qa, qb] = _
    congr 2
    omega
  · rw [h1, mul_one] at hleft
    rw [h1]
    by_cases hle : rb ≤ ra
    · rw [if_pos hle, if_neg (show ¬t < 2 * rb by omega)]
      show Except.ok [qa + 1, qb] = _
      congr 2
      omega
    · rw [if_neg hle, if_pos (show t < 2 * rb by omega)]
      show Except.ok [qa, qb + 1] = _
      congr 2
      omega

/-- A share is cut into its part of the bag's VAT, and the rest. -/
theorem splitShare_eq (hg : g.Nonneg) (h0 : 0 < share) (hle : share ≤ g.baseMinor + g.vatMinor) :
    splitShare g share =
      .ok (share - partOf share g.vatMinor (g.baseMinor + g.vatMinor),
        partOf share g.vatMinor (g.baseMinor + g.vatMinor)) := by
  have hb := hg.base
  have hv := hg.vat
  unfold splitShare
  simp only [show share > 0 ∧ g.baseMinor + g.vatMinor > 0 from ⟨h0, by omega⟩, and_self, if_true]
  by_cases hboth : g.baseMinor > 0 ∧ g.vatMinor > 0
  · rw [if_pos hboth, allocate_pair h0.le hboth.1 hboth.2]
    rfl
  · rw [if_neg hboth]
    by_cases hvat : g.vatMinor > 0
    · have hzero : g.baseMinor = 0 := by omega
      rw [if_pos hvat, hzero, zero_add, partOf_eq (q := share) (r := 0) (by ring) le_rfl hvat,
        if_neg (by omega), sub_self]
    · have hzero : g.vatMinor = 0 := by omega
      rw [if_neg hvat, hzero, partOf_eq (q := 0) (r := 0) (by ring) le_rfl (by omega),
        if_neg (by omega), sub_zero]

/-! ## The rate -/

/-- The VAT is within one céntimo of what the rate makes of the base. -/
def FiscalGroup.WithinACentimo (g : FiscalGroup) : Prop :=
  ∃ ideal, applyBps g.baseMinor g.vatBps "IVA" = .ok ideal ∧
    g.vatMinor - ideal ≤ 1 ∧ ideal - g.vatMinor ≤ 1

/-- The VAT that a bag holds in excess of its rate on its base, in ten-thousandths of a céntimo. -/
def FiscalGroup.excess (g : FiscalGroup) : Int := 10000 * g.vatMinor - g.vatBps * g.baseMinor

/-- The part of the excess that goes with a share is within the bounds of the roundings: twice of it
from `-(20000 - rate)` to `40000 + rate`, but for a remainder that depends on the share. -/
def FiscalGroup.InProportion (g : FiscalGroup) (share : Int) : Prop :=
  share = 0 ∨
    -(20000 - g.vatBps + (2 * g.vatBps * share - 30000) % (2 * (10000 + g.vatBps))) *
        (g.baseMinor + g.vatMinor) < 2 * share * g.excess ∧
      2 * share * g.excess ≤
        (40000 + g.vatBps - (2 * g.vatBps * share + 30000) % (2 * (10000 + g.vatBps))) *
          (g.baseMinor + g.vatMinor)

instance (g : FiscalGroup) (share : Int) : Decidable (g.InProportion share) :=
  inferInstanceAs (Decidable (_ ∨ _))

theorem bps_of_nonneg {amount rate : Int} (ha : 0 ≤ amount) (hr : 0 ≤ rate) :
    bps amount rate = (amount * rate + 5000) / 10000 := by
  have h := mul_nonneg ha hr
  unfold bps roundHalfAway
  rw [if_pos (by omega)]
  rfl

/-- The VAT `v` of a share is at most one céntimo off, as bounds on `v`. -/
theorem near_bps_iff {rate v : Int} (hr : 0 ≤ rate) (hvs : v ≤ share) :
    (v - bps (share - v) rate ≤ 1 ∧ bps (share - v) rate - v ≤ 1) ↔
      (2 * rate * share - 30000) / (2 * (10000 + rate)) < v ∧
        v ≤ (2 * rate * share + 30000) / (2 * (10000 + rate)) := by
  have hm : 0 < 2 * (10000 + rate) := by omega
  rw [bps_of_nonneg (by omega) hr, Int.ediv_lt_iff_lt_mul hm, Int.le_ediv_iff_mul_le hm]
  have hprod : (share - v) * rate = rate * share - v * rate := by ring
  have hmul : v * (2 * (10000 + rate)) = 20000 * v + 2 * (v * rate) := by ring
  have htwo : 2 * rate * share = 2 * (rate * share) := by ring
  rw [hprod, hmul, htwo]
  omega

/-- The part of the bag's VAT lies within those bounds exactly when the bag is in proportion. -/
theorem inProportion_iff (h0 : 0 < share) (hle : share ≤ g.baseMinor + g.vatMinor) :
    g.InProportion share ↔
      (2 * g.vatBps * share - 30000) / (2 * (10000 + g.vatBps)) <
          partOf share g.vatMinor (g.baseMinor + g.vatMinor) ∧
        partOf share g.vatMinor (g.baseMinor + g.vatMinor) ≤
          (2 * g.vatBps * share + 30000) / (2 * (10000 + g.vatBps)) := by
  have hr : (0 : Int) ≤ g.vatBps := Int.natCast_nonneg _
  unfold FiscalGroup.InProportion FiscalGroup.excess partOf
  generalize (g.vatBps : Int) = rate at *
  generalize g.baseMinor = b at *
  generalize g.vatMinor = v at *
  have ht : 0 < b + v := by omega
  have hpos : 0 < 10000 + rate := by omega
  have hlow := Int.mul_ediv_add_emod (2 * rate * share - 30000) (2 * (10000 + rate))
  have hhigh := Int.mul_ediv_add_emod (2 * rate * share + 30000) (2 * (10000 + rate))
  generalize (2 * rate * share - 30000) / (2 * (10000 + rate)) = low at *
  generalize (2 * rate * share - 30000) % (2 * (10000 + rate)) = lowRem at *
  generalize (2 * rate * share + 30000) / (2 * (10000 + rate)) = high at *
  generalize (2 * rate * share + 30000) % (2 * (10000 + rate)) = highRem at *
  have hlower : low < (2 * share * v + (b + v) - 1) / (2 * (b + v)) ↔
      (2 * low + 1) * (b + v) < 2 * share * v := by
    rw [← Int.add_one_le_iff, Int.le_ediv_iff_mul_le (by omega),
      show (low + 1) * (2 * (b + v)) = (2 * low + 1) * (b + v) + (b + v) by ring]
    omega
  have hupper : (2 * share * v + (b + v) - 1) / (2 * (b + v)) ≤ high ↔
      2 * share * v ≤ (2 * high + 1) * (b + v) := by
    rw [← Int.lt_add_one_iff, Int.ediv_lt_iff_lt_mul (by omega),
      show (high + 1) * (2 * (b + v)) = (2 * high + 1) * (b + v) + (b + v) by ring]
    omega
  -- Both bounds times `10000 + rate`, where the rates cancel out.
  have hlow' : (2 * share * v - (2 * low + 1) * (b + v)) * (10000 + rate) =
      2 * share * (10000 * v - rate * b) - -(20000 - rate + lowRem) * (b + v) := by
    linear_combination -(b + v) * hlow
  have hhigh' : ((2 * high + 1) * (b + v) - 2 * share * v) * (10000 + rate) =
      (40000 + rate - highRem) * (b + v) - 2 * share * (10000 * v - rate * b) := by
    linear_combination (b + v) * hhigh
  rw [hlower, hupper, or_iff_right h0.ne', ← sub_pos, ← hlow', ← sub_nonneg, ← hhigh',
    mul_pos_iff_of_pos_right hpos, mul_nonneg_iff_of_pos_right hpos, sub_pos, sub_nonneg]

/-- An excess of which the share's part is small enough does no harm, whatever the remainders are. -/
theorem inProportion_of_small
    (hsmall : 2 * share * g.excess < (20000 - g.vatBps) * (g.baseMinor + g.vatMinor))
    (hsmall' : -(2 * share * g.excess) < (20000 - g.vatBps) * (g.baseMinor + g.vatMinor))
    (ht : 0 ≤ g.baseMinor + g.vatMinor) : g.InProportion share := by
  have hm : (0 : Int) < 2 * (10000 + g.vatBps) := by omega
  have hlow := Int.emod_nonneg (2 * g.vatBps * share - 30000) hm.ne'
  have hhigh := Int.emod_lt_of_pos (2 * g.vatBps * share + 30000) hm
  refine .inr ⟨?_, ?_⟩
  · have := mul_le_mul_of_nonneg_right
      (show (20000 : Int) - g.vatBps ≤ 20000 - g.vatBps +
        (2 * g.vatBps * share - 30000) % (2 * (10000 + g.vatBps)) by omega) ht
    rw [neg_mul]
    omega
  · have := mul_le_mul_of_nonneg_right
      (show (20000 : Int) - g.vatBps ≤ 40000 + g.vatBps -
        (2 * g.vatBps * share + 30000) % (2 * (10000 + g.vatBps)) by omega) ht
    omega

/-! ## One bag -/

/-- A smaller base has its VAT as well. -/
theorem applyBps_of_le {amount amount' rate : Int} {label : String} (h0 : 0 ≤ amount)
    (hle : amount ≤ amount') (h : ∃ x, applyBps amount' rate label = .ok x) :
    applyBps amount rate label = .ok (bps amount rate) := by
  obtain ⟨x, hx⟩ := h
  obtain ⟨hr, -⟩ := applyBps_eq_ok hx
  unfold applyBps at hx ⊢
  rw [if_neg (not_lt.mpr hr)] at hx ⊢
  obtain ⟨y, hdiv, hrange⟩ := Except.bind_eq_ok.mp hx
  obtain ⟨-, rfl⟩ := divideRound_eq_ok.mp hdiv
  have hdiv' : divideRound (amount * rate) 10000 = .ok (bps amount rate) :=
    divideRound_eq_ok.mpr ⟨by decide, rfl⟩
  refine Except.bind_eq_ok.mpr ⟨_, hdiv', ?_⟩
  exact assertInRange_of_le (roundHalfAway_nonneg (by decide) (mul_nonneg h0 hr))
    (TaxLine.bps_mono hr hle) ⟨_, hrange⟩

/-- A bag that is not negative, and whose base is one that its rate can be applied to. -/
structure FiscalGroup.Rated (g : FiscalGroup) : Prop where
  nonneg : g.Nonneg
  rated : ∃ x, applyBps g.baseMinor g.vatBps "IVA" = .ok x

theorem FiscalGroup.Rated.of_cut {taken left : FiscalGroup} (h : g.Rated) (hc : Cut g taken left) :
    left.Rated := by
  refine ⟨hc.left_nonneg, bps left.baseMinor left.vatBps, ?_⟩
  have htaken := hc.taken_nonneg.base
  have hbase := hc.base
  rw [hc.left_rate]
  exact applyBps_of_le hc.left_nonneg.base (by omega) h.rated

/-- The VAT that a share is given is within one céntimo of the rate exactly when the bag that it is cut
out of is in proportion. -/
theorem withinACentimo_iff (hg : g.Rated) (h0 : 0 ≤ share) (hle : share ≤ g.baseMinor + g.vatMinor)
    {r : FiscalGroup × FiscalGroup} (h : drawGroup g share = .ok r) :
    r.1.WithinACentimo ↔ g.InProportion share := by
  have hb := hg.nonneg.base
  rcases h0.eq_or_lt with rfl | hpos
  · have hzero : applyBps 0 g.vatBps "IVA" = .ok (bps 0 g.vatBps) := applyBps_of_le le_rfl hb hg.rated
    have hnil : bps 0 g.vatBps = 0 := by
      rw [bps, zero_mul]
      exact roundHalfAway_zero (by decide)
    obtain rfl : r = (⟨g.vatBps, 0, 0⟩, ⟨g.vatBps, g.baseMinor - 0, g.vatMinor - 0⟩) := by
      unfold drawGroup splitShare at h
      exact (Except.ok.inj h).symm
    constructor
    · exact fun _ => .inl rfl
    · intro _
      refine ⟨_, hzero, ?_⟩
      rw [hnil]
      show (0 : Int) - 0 ≤ 1 ∧ (0 : Int) - 0 ≤ 1
      omega
  · obtain ⟨b, v, hsplit, hb0, hv0, hbb, -, hsum⟩ := splitShare_spec share hg.nonneg hpos.le hle
    have heq := splitShare_eq hg.nonneg hpos hle
    rw [hsplit] at heq
    obtain ⟨hbeq, hveq⟩ := Prod.mk.inj (Except.ok.inj heq)
    obtain rfl : r = (⟨g.vatBps, b, v⟩, ⟨g.vatBps, g.baseMinor - b, g.vatMinor - v⟩) := by
      unfold drawGroup at h
      rw [hsplit] at h
      exact (Except.ok.inj h).symm
    have hideal : applyBps b g.vatBps "IVA" = .ok (bps b g.vatBps) :=
      applyBps_of_le hb0 hbb hg.rated
    obtain rfl : b = share - v := by omega
    rw [inProportion_iff hpos hle, ← hveq, ← near_bps_iff (Int.natCast_nonneg _) (by omega)]
    constructor
    · rintro ⟨ideal, hideal', hnear⟩
      obtain rfl := Except.ok.inj (hideal.symm.trans hideal')
      exact hnear
    · exact fun hnear => ⟨_, hideal, hnear⟩

/-! ## One payment -/

/-- The bags that a payment is spread over, the service last. -/
def FiscalState.bags (state : FiscalState) : List Int :=
  (state.groups.map fun g => g.baseMinor + g.vatMinor) ++ [state.serviceMinor]

/-- Every bag is in proportion for its share of the amount. -/
def FiscalState.InProportion (state : FiscalState) (amount : Int) : Prop :=
  ∃ parts, allocateCapped amount state.bags state.bags = .ok parts ∧
    ∀ x ∈ state.groups.zip parts, x.1.InProportion x.2

structure FiscalState.Rated (state : FiscalState) : Prop where
  groups : ∀ g ∈ state.groups, g.Rated
  service : 0 ≤ state.serviceMinor

theorem FiscalState.Rated.nonneg {state : FiscalState} (h : state.Rated) : state.Nonneg :=
  ⟨fun g hg => (h.groups g hg).nonneg, h.service⟩

/-- The parts of the bags that a payment without a composition draws. -/
theorem allocatePayment_parts {state remaining : FiscalState} {amount : Int} {invoice : FiscalInvoice}
    (hs : state.Nonneg) (h0 : 0 < amount) (hle : amount ≤ outstandingOf state)
    (h : allocatePayment state amount none = .ok (invoice, remaining)) :
    ∃ parts drawn, allocateCapped amount state.bags state.bags = .ok parts ∧ Fits state.bags parts ∧
      (state.groups.zip parts).mapM (fun (group, share) => drawGroup group share) = .ok drawn ∧
      invoice.groups = drawn.map (·.1) := by
  have hcaps : ∀ c ∈ state.bags, 0 ≤ c := by
    simp only [FiscalState.bags, List.mem_append, List.mem_map, List.mem_singleton]
    rintro c (⟨g, hg, rfl⟩ | rfl)
    · exact add_nonneg (hs.groups g hg).base (hs.groups g hg).vat
    · exact hs.service
  have hsum : state.bags.sum = outstandingOf state := by simp [FiscalState.bags, outstandingOf]
  obtain ⟨parts, hparts, hfits, -⟩ := allocateCapped_fills state.bags hcaps h0.le (hsum ▸ hle)
  obtain ⟨drawn, hdrawn, -⟩ := drawAll_spec hs.groups hfits
  refine ⟨parts, drawn, hparts, hfits, hdrawn, ?_⟩
  unfold allocatePayment at h
  simp only [if_neg (not_lt.mpr h0.le), if_neg (not_lt.mpr hle), if_neg h0.ne'] at h
  obtain ⟨parts', hparts', h⟩ := Except.bind_eq_ok.mp h
  obtain rfl := Except.ok.inj (hparts.symm.trans hparts')
  obtain ⟨drawn', hdrawn', h⟩ := Except.bind_eq_ok.mp h
  obtain rfl := Except.ok.inj (hdrawn.symm.trans hdrawn')
  obtain ⟨rfl, -⟩ := Prod.mk.inj (Except.ok.inj h)
  rfl

/-- What holds of the first pieces of all bags, bag by bag. -/
theorem forall_drawn_iff {pairs : List (FiscalGroup × Int)} {drawn : List (FiscalGroup × FiscalGroup)}
    {P : FiscalGroup → Prop} {Q : FiscalGroup × Int → Prop}
    (h : List.Forall₂ (fun x r => drawGroup x.1 x.2 = .ok r) pairs drawn)
    (hiff : ∀ x ∈ pairs, ∀ r, drawGroup x.1 x.2 = .ok r → (P r.1 ↔ Q x)) :
    (∀ g ∈ drawn.map (·.1), P g) ↔ ∀ x ∈ pairs, Q x := by
  induction h with
  | nil => simp
  | @cons x r pairs drawn hx _ ih =>
    rw [List.map_cons, List.forall_mem_cons, List.forall_mem_cons,
      hiff x List.mem_cons_self r hx, ih fun y hy => hiff y (List.mem_cons_of_mem _ hy)]

/-- A share is within its bag. -/
theorem Fits.share_le {service : Int} {groups : List FiscalGroup} {parts : List Int}
    (h : Fits ((groups.map fun g => g.baseMinor + g.vatMinor) ++ [service]) parts) :
    ∀ x ∈ groups.zip parts, 0 ≤ x.2 ∧ x.2 ≤ x.1.baseMinor + x.1.vatMinor := by
  induction groups generalizing parts with
  | nil => simp
  | cons g groups ih =>
    cases parts with
    | nil => simp
    | cons p parts =>
      rw [List.zip_cons_cons, List.forall_mem_cons]
      exact ⟨⟨by simpa using h.nonneg 0, by simpa using h.le_cap 0⟩, ih h.tail⟩

/-- The invoice of a payment is within one céntimo at every rate exactly when the bags are in
proportion for it. -/
theorem allocatePayment_within_iff {state remaining : FiscalState} {amount : Int}
    {invoice : FiscalInvoice} (hs : state.Rated) (h0 : 0 < amount) (hle : amount ≤ outstandingOf state)
    (h : allocatePayment state amount none = .ok (invoice, remaining)) :
    (∀ g ∈ invoice.groups, g.WithinACentimo) ↔ state.InProportion amount := by
  obtain ⟨parts, drawn, hparts, hfits, hdrawn, hgroups⟩ :=
    allocatePayment_parts hs.nonneg h0 hle h
  have hshare := hfits.share_le
  have hdrew : List.Forall₂ (fun x r => drawGroup x.1 x.2 = .ok r) (state.groups.zip parts) drawn :=
    Except.mapM_eq_ok hdrawn
  have hiff := forall_drawn_iff hdrew fun x hx r hr =>
    withinACentimo_iff (hs.groups x.1 (List.of_mem_zip hx).1) (hshare x hx).1 (hshare x hx).2 hr
  rw [hgroups, hiff]
  constructor
  · exact fun hall => ⟨parts, hparts, hall⟩
  · rintro ⟨parts', hparts', hall⟩
    obtain rfl := Except.ok.inj (hparts.symm.trans hparts')
    exact hall

/-! ## A run of payments -/

/-- Whenever a payment is drawn, the bags are in proportion for it. -/
def FiscalState.KeepsProportion (state : FiscalState) : List Int → Prop
  | [] => True
  | amount :: amounts => state.InProportion amount ∧
      ∀ invoice remaining, allocatePayment state amount none = .ok (invoice, remaining) →
        remaining.KeepsProportion amounts

/-- The invoices of payments without a composition. -/
def invoicesOf (state : FiscalState) (amounts : List Int) :
    Except Err (List FiscalInvoice × FiscalState) :=
  allocatePayments state (amounts.map fun amount => ⟨amount, none⟩)

/-- The rating of the bags lasts. -/
theorem Draws.rated {state remaining : FiscalState} {amount : Int} {invoice : FiscalInvoice}
    (hs : state.Rated) (h : Draws state amount invoice remaining) : remaining.Rated := by
  refine ⟨?_, h.service_left⟩
  have hcuts := h.cuts
  have hgroups := hs.groups
  revert hcuts hgroups
  generalize state.groups = gs
  generalize invoice.groups = ts
  generalize remaining.groups = ls
  intro hcuts
  induction hcuts with
  | nil => simp
  | cons hc _ ih =>
    intro hgroups
    obtain ⟨hg, hgs⟩ := List.forall_mem_cons.mp hgroups
    exact List.forall_mem_cons.mpr ⟨hg.of_cut hc, ih hgs⟩

theorem invoicesOf_cons {state remaining : FiscalState} {amount : Int} {amounts : List Int}
    {invoices : List FiscalInvoice} :
    invoicesOf state (amount :: amounts) = .ok (invoices, remaining) ↔
      ∃ invoice next rest, allocatePayment state amount none = .ok (invoice, next) ∧
        invoicesOf next amounts = .ok (rest, remaining) ∧ invoices = invoice :: rest := by
  unfold invoicesOf
  rw [List.map_cons, allocatePayments]
  simp only [Except.bind_eq_ok, Prod.exists, Except.ok.injEq, Prod.mk.injEq]
  constructor
  · rintro ⟨invoice, next, hfirst, rest, final, hrest, rfl, rfl⟩
    exact ⟨invoice, next, rest, hfirst, hrest, rfl⟩
  · rintro ⟨invoice, next, rest, hfirst, hrest, rfl⟩
    exact ⟨invoice, next, hfirst, rest, remaining, hrest, rfl, rfl⟩

theorem invoices_within_iff {state : FiscalState} {amounts : List Int} (hs : state.Rated)
    (hp : Admissible state (amounts.map fun amount => ⟨amount, none⟩)) :
    (∃ invoices remaining, invoicesOf state amounts = .ok (invoices, remaining) ∧
        ∀ i ∈ invoices, ∀ g ∈ i.groups, g.WithinACentimo) ↔ state.KeepsProportion amounts := by
  induction amounts generalizing state with
  | nil => exact ⟨fun _ => trivial, fun _ => ⟨[], state, rfl, by simp⟩⟩
  | cons amount amounts ih =>
    obtain ⟨h0, hle, hrest⟩ := hp
    obtain ⟨invoice, next, halloc, hd⟩ := allocatePayment_draws none hs.nonneg h0 hle
    have hfirst := allocatePayment_within_iff hs h0 hle halloc
    have hlater := ih (hd.rated hs) (hrest _ _ halloc)
    constructor
    · rintro ⟨invoices, remaining, hok, hall⟩
      obtain ⟨invoice', next', rest, halloc', hok', rfl⟩ := invoicesOf_cons.mp hok
      obtain ⟨rfl, rfl⟩ := Prod.mk.inj (Except.ok.inj (halloc.symm.trans halloc'))
      obtain ⟨hinvoice, hinvoices⟩ := List.forall_mem_cons.mp hall
      refine ⟨hfirst.mp hinvoice, fun i r hir => ?_⟩
      obtain ⟨rfl, rfl⟩ := Prod.mk.inj (Except.ok.inj (halloc.symm.trans hir))
      exact hlater.mp ⟨rest, remaining, hok', hinvoices⟩
    · rintro ⟨hprop, hkeeps⟩
      obtain ⟨invoices, remaining, hok, hall⟩ := hlater.mpr (hkeeps _ _ halloc)
      exact ⟨invoice :: invoices, remaining, invoicesOf_cons.mpr ⟨_, _, _, halloc, hok, rfl⟩,
        List.forall_mem_cons.mpr ⟨hfirst.mpr hprop, hall⟩⟩

/-- The state of the lines of a bill. -/
theorem stateFromLines_rated {lines : List BillLine} {serviceMinor : Int} {state : FiscalState}
    (hlines : ∀ l ∈ lines, 0 ≤ l.subtotalMinor) (hservice : 0 ≤ serviceMinor)
    (h : stateFromLines lines serviceMinor = .ok state) : state.Rated := by
  unfold stateFromLines at h
  obtain ⟨groups, hgroups, h⟩ := Except.bind_eq_ok.mp h
  obtain rfl := Except.pure_eq_ok.mp h
  refine ⟨fun g hg => ?_, hservice⟩
  obtain ⟨rate, -, hrate⟩ := Except.exists_of_mapM hgroups g hg
  unfold rateGroup at hrate
  obtain ⟨vat, hvat, hrate⟩ := Except.bind_eq_ok.mp hrate
  obtain rfl := Except.pure_eq_ok.mp hrate
  obtain ⟨hr, hbps⟩ := applyBps_eq_ok hvat
  have hbase : 0 ≤ ((lines.filter (·.vatBps = rate)).map (·.subtotalMinor)).sum := by
    refine List.sum_nonneg fun x hx => ?_
    obtain ⟨l, hl, rfl⟩ := List.mem_map.mp hx
    exact hlines l (List.mem_of_mem_filter hl)
  refine ⟨⟨hbase, ?_⟩, vat, hvat⟩
  show 0 ≤ vat
  rw [hbps]
  exact roundHalfAway_nonneg (by decide) (mul_nonneg hbase hr)

/-- Of the lines of a bill and any admissible payments without a composition, every invoice has at
every rate a VAT within one céntimo of the rate on its own base exactly when the bags are in
proportion whenever a payment is drawn. -/
theorem vat_drift_iff {lines : List BillLine} {serviceMinor : Int} {state : FiscalState}
    {amounts : List Int} (hlines : ∀ l ∈ lines, 0 ≤ l.subtotalMinor) (hservice : 0 ≤ serviceMinor)
    (h : stateFromLines lines serviceMinor = .ok state)
    (hp : Admissible state (amounts.map fun amount => ⟨amount, none⟩)) :
    (∃ invoices remaining, invoicesOf state amounts = .ok (invoices, remaining) ∧
        ∀ i ∈ invoices, ∀ g ∈ i.groups, g.WithinACentimo) ↔ state.KeepsProportion amounts :=
  invoices_within_iff (stateFromLines_rated hlines hservice h) hp

/-- A line of ten bolívares at the general rate. -/
def tenBolivares : BillLine := ⟨40, "Pabellón", 1, 1000, 1000, .taxable, 1600⟩

/-- A bill of 11.60, in two payments. -/
theorem halves_within_a_centimo : ∃ invoices remaining,
    invoicesOf ⟨[⟨1600, 1000, 160⟩], 0⟩ [500, 660] = .ok (invoices, remaining) ∧
      ∀ i ∈ invoices, ∀ g ∈ i.groups, g.WithinACentimo := by
  have hfirst : allocatePayment ⟨[⟨1600, 1000, 160⟩], 0⟩ 500 none =
      .ok (⟨[⟨1600, 431, 69⟩], 0, 500⟩, ⟨[⟨1600, 569, 91⟩], 0⟩) := by decide
  have hline : ∀ l ∈ [tenBolivares], 0 ≤ l.subtotalMinor := by decide
  refine (vat_drift_iff hline le_rfl (by decide) ?_).mpr ?_
  · exact .cons (by decide) (by decide) hfirst ⟨by decide, by decide, fun _ _ _ => trivial⟩
  · refine ⟨⟨[500, 0], by decide, by decide⟩, fun invoice remaining hrun => ?_⟩
    obtain ⟨rfl, rfl⟩ := Prod.mk.inj (Except.ok.inj (hfirst.symm.trans hrun))
    exact ⟨⟨[660, 0], by decide, by decide⟩, fun _ _ _ => trivial⟩

/-- Four payments of three céntimos take no VAT out of the same bill. The one that pays the rest is
invoiced 9.88 with 1.60 of VAT, where the rate makes 1.58 of it. -/
theorem crumbs_drift :
    stateFromLines [tenBolivares] 0 = .ok ⟨[⟨1600, 1000, 160⟩], 0⟩ ∧
      Admissible ⟨[⟨1600, 1000, 160⟩], 0⟩
        ([3, 3, 3, 3, 1148].map fun amount => ⟨amount, none⟩) ∧
      (invoicesOf ⟨[⟨1600, 1000, 160⟩], 0⟩ [3, 3, 3, 3, 1148]).map (fun r => r.1.map (·.groups)) =
        .ok [[⟨1600, 3, 0⟩], [⟨1600, 3, 0⟩], [⟨1600, 3, 0⟩], [⟨1600, 3, 0⟩], [⟨1600, 988, 160⟩]] ∧
      applyBps 988 1600 "IVA" = .ok 158 ∧ ¬FiscalGroup.WithinACentimo ⟨1600, 988, 160⟩ := by
  have hstep : ∀ base vat : Int, (base, vat) ∈ [(1000, 160), (997, 160), (994, 160), (991, 160)] →
      allocatePayment ⟨[⟨1600, base, vat⟩], 0⟩ 3 none =
        .ok (⟨[⟨1600, 3, 0⟩], 0, 3⟩, ⟨[⟨1600, base - 3, vat⟩], 0⟩) := by
    simp only [List.mem_cons, List.not_mem_nil, or_false, Prod.mk.injEq]
    rintro base vat (⟨rfl, rfl⟩ | ⟨rfl, rfl⟩ | ⟨rfl, rfl⟩ | ⟨rfl, rfl⟩) <;> decide
  refine ⟨by decide, ?_, by decide, by decide, ?_⟩
  · refine .cons (by decide) (by decide) (hstep 1000 160 (by decide)) ?_
    refine .cons (by decide) (by decide) (hstep 997 160 (by decide)) ?_
    refine .cons (by decide) (by decide) (hstep 994 160 (by decide)) ?_
    refine .cons (by decide) (by decide) (hstep 991 160 (by decide)) ?_
    exact ⟨by decide, by decide, fun _ _ _ => trivial⟩
  · rintro ⟨ideal, hideal, hle, -⟩
    have h158 : applyBps 988 1600 "IVA" = .ok 158 := by decide
    obtain rfl := Except.ok.inj (h158.symm.trans hideal)
    exact absurd hle (by decide)

end Splite
