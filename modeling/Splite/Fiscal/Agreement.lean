import Splite.Fiscal.Bags
import Splite.Fiscal.Claimed

/-!
# The bill and its bags (`recalculateTotals`, `stateFromLines` and `toVes`)

The bill groups its lines in a query and converts its total; the bags are grouped from the lines again and
the total is spread over them.

* `stateFromLines_groups`, `summariseTaxGroups_groups`: both find the same groups.
* `toVes_zeros`: a bag that is empty stays empty.
* `bags_agree`: the bags of a bill whose totals were just worked out hold what is due.
-/

namespace Splite

variable {items : List BillItem} {lines : List BillLine}

/-! ## The groups -/

/-- A bag of a rate, as a group of the bill. -/
def FiscalGroup.taxGroup (g : FiscalGroup) : TaxGroup := ⟨g.vatBps, g.baseMinor, g.vatMinor⟩

/-- The group of the lines at one rate. -/
def groupOf (items : List BillItem) (rate : Int) : TaxGroup :=
  ⟨rate, TaxLine.base (items.map BillItem.taxLine) rate,
    bps (TaxLine.base (items.map BillItem.taxLine) rate) rate⟩

theorem summariseTaxGroups_groups {tax : TaxSummary}
    (h : summariseTaxGroups (taxGroupRows items) = .ok tax) :
    tax.groups = (sortedRates items).map (groupOf items) := by
  obtain ⟨groups, hgroups, hret⟩ := Except.bind_eq_ok.mp h
  cases hret
  have hrow : List.Forall₂ (fun r g => groupOf items r = g) (sortedRates items) groups := by
    refine (List.forall₂_map_left_iff.mp (Except.mapM_eq_ok hgroups)).imp fun r g hg => ?_
    obtain ⟨v, hv, hg⟩ := Except.bind_eq_ok.mp hg
    obtain rfl := Except.pure_eq_ok.mp hg
    obtain ⟨-, rfl⟩ := applyBps_eq_ok hv
    simp only [sum_group, groupOf]
  have hgroups : (sortedRates items).map (groupOf items) = groups := by
    rw [← List.forall₂_eq_eq_eq, List.forall₂_map_left_iff]
    exact hrow
  exact hgroups.symm

theorem stateFromLines_groups {service : Int} {state : FiscalState}
    (h : TaxLine.Nonneg (items.map BillItem.taxLine))
    (hstate : stateFromLines (items.map BillItem.line) service = .ok state) :
    state.groups.map FiscalGroup.taxGroup = (sortedRates items).map (groupOf items) ∧
      state.serviceMinor = service := by
  unfold stateFromLines at hstate
  dsimp only at hstate
  obtain ⟨groups, hgroups, hret⟩ := Except.bind_eq_ok.mp hstate
  obtain rfl := Except.pure_eq_ok.mp hret
  refine ⟨?_, rfl⟩
  have hrow : List.Forall₂ (fun (r : Nat) g => groupOf items r = g.taxGroup)
      (((items.map BillItem.line).map (·.vatBps)).dedup.insertionSort (· ≤ ·)) groups := by
    refine (Except.mapM_eq_ok hgroups).imp fun r g hg => ?_
    obtain ⟨v, hv, hg⟩ := Except.bind_eq_ok.mp hg
    obtain rfl := Except.pure_eq_ok.mp hg
    obtain ⟨-, rfl⟩ := applyBps_eq_ok hv
    simp only [sum_line_group h, groupOf, FiscalGroup.taxGroup]
  -- The rates are the same ones, as naturals.
  have hrates : sortedRates items =
      (((items.map BillItem.line).map (·.vatBps)).dedup.insertionSort (· ≤ ·)).map Nat.cast := by
    have hsorted := List.map_insertionSort (r := fun a b : Nat => a ≤ b) (s := fun a b : Int => a ≤ b)
      Nat.cast ((items.map BillItem.line).map (·.vatBps)).dedup fun a _ b _ => Int.ofNat_le.symm
    rw [hsorted, ← List.dedup_map_of_injective Nat.cast_injective, List.map_map, List.map_map]
    unfold sortedRates
    congr 2
    refine List.map_congr_left fun i hi => ?_
    exact (Int.toNat_of_nonneg (vatBps_nonneg h hi)).symm
  have hsame : (((items.map BillItem.line).map (·.vatBps)).dedup.insertionSort (· ≤ ·)).map
      (fun r : Nat => groupOf items r) = groups.map FiscalGroup.taxGroup := by
    rw [← List.forall₂_eq_eq_eq, List.forall₂_map_left_iff, List.forall₂_map_right_iff]
    exact hrow
  rw [hrates, List.map_map, ← hsame]
  rfl

/-! ## The conversion -/

/-- A bag that was empty is empty. -/
structure FiscalGroup.StaysEmpty (g g' : FiscalGroup) : Prop where
  rate : g'.vatBps = g.vatBps
  base : g.baseMinor = 0 → g'.baseMinor = 0
  vat : g.vatMinor = 0 → g'.vatMinor = 0

/-- The bucket of the base of a group. -/
theorem buckets_getD_base : ∀ {groups : List FiscalGroup} {rest : List Int} {i : Nat}
    (hi : i < groups.length),
    ((groups.flatMap fun g => [g.baseMinor, g.vatMinor]) ++ rest).getD (i * 2) 0 = groups[i].baseMinor
  | g :: groups, rest, 0, _ => rfl
  | g :: groups, rest, i + 1, hi => by
    have hsucc : (i + 1) * 2 = i * 2 + 2 := by omega
    rw [hsucc]
    simpa using @buckets_getD_base groups rest i (Nat.lt_of_succ_lt_succ hi)

/-- The conversion keeps the rates, and what is empty. -/
theorem toVes_zeros {state state' : FiscalState} {totalVes : Int} (h : toVes state totalVes = .ok state') :
    List.Forall₂ FiscalGroup.StaysEmpty state.groups state'.groups ∧
      (state.serviceMinor = 0 → state'.serviceMinor = 0) := by
  unfold toVes at h
  dsimp only at h
  split at h
  · obtain rfl := Except.pure_eq_ok.mp h
    exact ⟨List.forall₂_same.mpr fun g _ => ⟨rfl, id, id⟩, id⟩
  · obtain ⟨parts, -, h⟩ := Except.bind_eq_ok.mp h
    obtain rfl := Except.pure_eq_ok.mp h
    constructor
    · rw [List.forall₂_map_right_iff]
      refine List.forall₂_iff_get.mpr ⟨by simp, fun i hi hi' => ?_⟩
      simp only [List.get_eq_getElem, List.getElem_zipIdx, Nat.zero_add]
      refine ⟨rfl, fun hzero => spread_getD_eq_zero ?_, fun hzero => spread_getD_eq_zero ?_⟩
      · rw [buckets_getD_base hi, hzero]
      · rw [buckets_getD_vat hi, hzero]
    · intro hzero
      refine spread_getD_eq_zero ?_
      simp [hzero]

/-! ## The totals -/

theorem recalculateTotals_summary {s s' : Db} {bill updated : Bill}
    (h : (recalculateTotals bill).run s = .ok updated s') :
    ∃ tax, summariseTaxGroups (taxGroupRows (s.itemsOf bill.id)) = .ok tax := by
  unfold recalculateTotals at h
  simp only [Tx.bind_ok, Tx.run_get, Tx.ofExcept_ok] at h
  obtain ⟨_, _, ⟨rfl, rfl⟩, tax, _, ⟨htax, -⟩, -⟩ := h
  exact ⟨tax, htax⟩

/-- The bags of a bill whose totals were just worked out: the groups of the bill, nothing negative, what is
due in all, and nothing in a bag that had nothing in the currency of the bill. -/
theorem bags_agree {s s' : Db} {bill updated : Bill} (hitems : ∀ i ∈ s.itemsOf bill.id, i.violated = none)
    (hves : bill.currency = .ves → bill.fxRateVesPerUnit.getD RATE_SCALE = RATE_SCALE)
    (h : (recalculateTotals bill).run s = .ok updated s') :
    ∃ tax native state, summariseTaxGroups (taxGroupRows (s.itemsOf bill.id)) = .ok tax ∧
      stateFromLines ((s'.itemsOf bill.id).map BillItem.line) updated.serviceChargeMinor = .ok native ∧
      initialState s' updated = .ok state ∧ native.groups.map FiscalGroup.taxGroup = tax.groups ∧
      outstandingOf state = updated.totalDueVes ∧ state.Nonneg ∧
      List.Forall₂ FiscalGroup.StaysEmpty native.groups state.groups ∧
      (native.serviceMinor = 0 → state.serviceMinor = 0) := by
  obtain ⟨tax, htax⟩ := recalculateTotals_summary h
  obtain ⟨hitemised, hwith, -, splits, hs'⟩ := recalculateTotals_itemised h
  have hid : updated.id = bill.id := (congrArg Bill.id hwith).symm
  have hcurrency : updated.currency = bill.currency := (congrArg Bill.currency hwith).symm
  have hfx : updated.fxRateVesPerUnit = bill.fxRateVesPerUnit := (congrArg Bill.fxRateVesPerUnit hwith).symm
  have hlines : s'.itemsOf bill.id = s.itemsOf bill.id := by rw [hs']; rfl
  have hnonneg := hitemised.nonneg_of_valid hitems
  have hservice : 0 ≤ updated.serviceChargeMinor := by
    obtain ⟨hbps, hservice⟩ := applyBps_eq_ok hitemised.service
    rw [hservice, hitemised.subtotal]
    exact roundHalfAway_nonneg (by decide) (mul_nonneg (TaxLine.subtotal_nonneg hnonneg) hbps)
  obtain ⟨native, hnative, hholds⟩ := stateFromLines_ok hnonneg hitemised.vatOf hservice
  obtain ⟨hgroups, hnativeService⟩ := stateFromLines_groups hnonneg hnative
  have htotal : TaxLine.subtotal (s.lines bill.id) + TaxLine.vat (s.lines bill.id) +
      updated.serviceChargeMinor = updated.totalDue := by
    rw [hitemised.total, hitemised.subtotal, hitemised.vat]
    rfl
  have hholds : native.Holds updated.totalDue := htotal ▸ hholds
  have hdue := applyRate_eq_ok hitemised.totalVes
  have hsummary := (summariseTaxGroups_groups htax).trans hgroups.symm
  rw [hlines]
  suffices ∃ state, initialState s' updated = .ok state ∧ state.Holds updated.totalDueVes ∧
      List.Forall₂ FiscalGroup.StaysEmpty native.groups state.groups ∧
      (native.serviceMinor = 0 → state.serviceMinor = 0) by
    obtain ⟨state, hstate, hstateHolds, hempty, hservice⟩ := this
    exact ⟨tax, native, state, htax, hnative, hstate, hsummary.symm, hstateHolds.total, hstateHolds.nonneg,
      hempty, hservice⟩
  unfold initialState
  rw [hid, hlines, hnative, Except.ok_bind]
  split
  · -- A bill in bolívares is due what it is.
    rename_i hbill
    have hrate : updated.scaledRate = RATE_SCALE := by
      rw [Bill.scaledRate, hfx, hves (hcurrency ▸ hbill)]
    rw [hrate, roundHalfAway_mul_self (by decide)] at hdue
    exact ⟨native, rfl, hdue ▸ hholds, List.forall₂_same.mpr fun g _ => ⟨rfl, id, id⟩, id⟩
  · obtain ⟨hpos, -⟩ := parseRate_eq_ok hitemised.rate
    have hscaled : 0 < updated.scaledRate := hpos
    have hzero : updated.totalDue = 0 → updated.totalDueVes = 0 := by
      intro hnothing
      rw [hdue, hnothing, zero_mul, roundHalfAway_zero (by decide)]
    have hvat : 0 ≤ TaxLine.vat (s.lines bill.id) := by
      have hmono : TaxLine.vat 0 ≤ TaxLine.vat (0 + s.lines bill.id) :=
        TaxLine.vat_mono (by rwa [zero_add])
      rwa [zero_add] at hmono
    have hdueNonneg : 0 ≤ updated.totalDueVes := by
      rw [hdue]
      refine roundHalfAway_nonneg (by decide) (mul_nonneg ?_ hscaled.le)
      have := TaxLine.subtotal_nonneg hnonneg
      omega
    obtain ⟨state, hstate, hstateHolds⟩ :=
      toVes_ok hholds hzero hdueNonneg
    exact ⟨state, hstate, hstateHolds, toVes_zeros hstate⟩

/-- A dinner in dollars, at 36.5 bolívares for one. -/
def dollarBill : Bill :=
  { dinnerBill with currency := .usd, serviceChargeBps := 1000, fxRateVesPerUnit := some 3650000000 }

def dollarDinner : Db := { dinner.db with bills := ⟨[dollarBill], by simp⟩ }

theorem dollarDinner_agrees : ∃ updated s' state,
    (recalculateTotals dollarBill).run dollarDinner = .ok updated s' ∧ initialState s' updated = .ok state ∧
      outstandingOf state = updated.totalDueVes := by
  obtain ⟨updated, s', hrun⟩ : ∃ updated s',
      (recalculateTotals dollarBill).run dollarDinner = .ok updated s' := ⟨_, _, rfl⟩
  obtain ⟨-, -, state, -, -, hstate, -, htotal, -⟩ := bags_agree (by decide) (by decide) hrun
  exact ⟨updated, s', state, hrun, hstate, htotal⟩

end Splite
