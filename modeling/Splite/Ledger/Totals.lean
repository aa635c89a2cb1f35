import Splite.Ledger.BillItems
import Splite.Lib.Except
import Splite.Lib.Round
import Mathlib.Algebra.BigOperators.Group.Finset.Basic

/-!
# What the lines of a bill come to

The figures of a bill are a function of the multiset of its lines, each a VAT rate and an amount, and
of the two rates that are frozen on it. `Bill.Itemised` says that they are the bill's figures.

* `vat_eq`, `sum_base`: sums over the rates of the lines are sums over any larger set of rates.
* `price_mono`: more lines never come to less.
* `Bill.Itemised.unique`: the lines and the frozen rates determine the figures.
* `recalculateTotals_itemised`: what `recalculateTotals` writes are those figures.
-/

namespace Splite

/-- A line as the tax sees it. -/
structure TaxLine where
  vatBps : Int
  subtotalMinor : Int
  deriving DecidableEq, Repr

/-- `applyBps` without its bounds. -/
def bps (minorUnits rateBps : Int) : Int := roundHalfAway (minorUnits * rateBps) 10000

namespace TaxLine

variable {lines lines' : Multiset TaxLine} {rate : Int}

/-- The VAT rates of the lines. -/
def rates (lines : Multiset TaxLine) : Finset Int := (lines.map vatBps).toFinset

/-- What the lines of one rate sum to. -/
def base (lines : Multiset TaxLine) (rate : Int) : Int :=
  (lines.map fun l => if l.vatBps = rate then l.subtotalMinor else 0).sum

def subtotal (lines : Multiset TaxLine) : Int := (lines.map subtotalMinor).sum

/-- The VAT is rounded once for each rate. -/
def vat (lines : Multiset TaxLine) : Int := ∑ r ∈ rates lines, bps (base lines r) r

/-- The total at the given rate of service and of exchange, in céntimos. -/
def price (serviceChargeBps scaledRate : Int) (lines : Multiset TaxLine) : Int :=
  roundHalfAway
    ((subtotal lines + vat lines + bps (subtotal lines) serviceChargeBps) * scaledRate) RATE_SCALE

theorem base_eq_zero (h : rate ∉ rates lines) : base lines rate = 0 := by
  unfold base
  refine Multiset.sum_eq_zero fun x hx => ?_
  obtain ⟨l, hl, rfl⟩ := Multiset.mem_map.mp hx
  have hne : l.vatBps ≠ rate := fun he =>
    h (Multiset.mem_toFinset.mpr (Multiset.mem_map.mpr ⟨l, hl, he⟩))
  rw [if_neg hne]

@[simp] theorem base_add : base (lines + lines') rate = base lines rate + base lines' rate := by
  simp [base]

@[simp] theorem subtotal_add : subtotal (lines + lines') = subtotal lines + subtotal lines' := by
  simp [subtotal]

/-- The bases of all rates sum to the subtotal. -/
theorem sum_base {all : Finset Int} (h : rates lines ⊆ all) :
    ∑ r ∈ all, base lines r = subtotal lines := by
  induction lines using Multiset.induction with
  | empty => simp [base, subtotal]
  | cons l lines ih =>
    have hrates : rates (l ::ₘ lines) = insert l.vatBps (rates lines) := by simp [rates]
    rw [hrates, Finset.insert_subset_iff] at h
    have hcons : ∀ r, base (l ::ₘ lines) r =
        (if l.vatBps = r then l.subtotalMinor else 0) + base lines r := fun r => by simp [base]
    rw [Finset.sum_congr rfl fun r _ => hcons r, Finset.sum_add_distrib, ih h.2,
      Finset.sum_ite_eq, if_pos h.1]
    simp [subtotal]

/-- A rate that no line has adds no VAT. -/
theorem vat_eq {all : Finset Int} (h : rates lines ⊆ all) :
    vat lines = ∑ r ∈ all, bps (base lines r) r := by
  refine Finset.sum_subset h fun r _ hr => ?_
  rw [base_eq_zero hr, bps, zero_mul]
  exact roundHalfAway_zero (by decide)

/-! ## More lines never come to less -/

/-- No line has a negative amount or a negative rate. -/
def Nonneg (lines : Multiset TaxLine) : Prop := ∀ l ∈ lines, 0 ≤ l.subtotalMinor ∧ 0 ≤ l.vatBps

theorem base_nonneg (h : Nonneg lines) : 0 ≤ base lines rate := by
  refine Multiset.sum_nonneg fun x hx => ?_
  obtain ⟨l, hl, rfl⟩ := Multiset.mem_map.mp hx
  split
  · exact (h l hl).1
  · exact le_rfl

theorem subtotal_nonneg (h : Nonneg lines) : 0 ≤ subtotal lines := by
  refine Multiset.sum_nonneg fun x hx => ?_
  obtain ⟨l, hl, rfl⟩ := Multiset.mem_map.mp hx
  exact (h l hl).1

theorem bps_mono {amount amount' : Int} (hr : 0 ≤ rate) (h : amount ≤ amount') :
    bps amount rate ≤ bps amount' rate :=
  roundHalfAway_mono (by decide) (mul_le_mul_of_nonneg_right h hr)

theorem vat_mono (h : Nonneg (lines + lines')) : vat lines ≤ vat (lines + lines') := by
  have hsub : rates lines ⊆ rates (lines + lines') := by simp [rates]
  have hmore : Nonneg lines' := fun l hl => h l (Multiset.mem_add.mpr (.inr hl))
  rw [vat_eq hsub, vat_eq subset_rfl]
  refine Finset.sum_le_sum fun r hr => bps_mono ?_ ?_
  · obtain ⟨l, hl, rfl⟩ := Multiset.mem_map.mp (Multiset.mem_toFinset.mp hr)
    exact (h l hl).2
  · rw [base_add]
    have : 0 ≤ base lines' r := base_nonneg hmore
    omega

/-- More lines never come to less. -/
theorem price_mono {serviceChargeBps scaledRate : Int} (h : Nonneg (lines + lines'))
    (hservice : 0 ≤ serviceChargeBps) (hrate : 0 ≤ scaledRate) :
    price serviceChargeBps scaledRate lines ≤ price serviceChargeBps scaledRate (lines + lines') := by
  have hmore : Nonneg lines' := fun l hl => h l (Multiset.mem_add.mpr (.inr hl))
  have hsub : subtotal lines ≤ subtotal (lines + lines') := by
    have := subtotal_nonneg hmore
    rw [subtotal_add]
    omega
  have hvat := vat_mono h
  have hcharge := bps_mono hservice hsub
  exact roundHalfAway_mono (by decide) (mul_le_mul_of_nonneg_right (by omega) hrate)

end TaxLine

/-! ## Bounded arithmetic -/

theorem applyBps_eq_ok {amount rate v : Int} {label : String} (h : applyBps amount rate label = .ok v) :
    0 ≤ rate ∧ v = bps amount rate := by
  unfold applyBps at h
  split at h
  · cases h
  · obtain ⟨v', hdiv, hrange⟩ := Except.bind_eq_ok.mp h
    obtain ⟨-, rfl⟩ := divideRound_eq_ok.mp hdiv
    exact ⟨by omega, assertInRange_eq_ok hrange⟩

/-! ## The figures of a bill -/

def BillItem.taxLine (i : BillItem) : TaxLine := ⟨i.vatBps.getD 0, i.subtotalMinor⟩

/-- The lines of a bill. -/
def Db.lines (s : Db) (billId : Uuid) : Multiset TaxLine := (s.itemsOf billId).map BillItem.taxLine

/-- The rate that is frozen on a bill. -/
def Bill.scaledRate (b : Bill) : Int := b.fxRateVesPerUnit.getD RATE_SCALE

/-- What the lines come to at the rates that are frozen on a bill. -/
def Bill.priceOf (b : Bill) (lines : Multiset TaxLine) : Int :=
  TaxLine.price b.serviceChargeBps b.scaledRate lines

/-- The figures of a bill are those of its lines. -/
structure Bill.Itemised (b : Bill) (lines : Multiset TaxLine) : Prop where
  subtotal : b.subtotalMinor = TaxLine.subtotal lines
  vat : b.vatMinor = ∑ r ∈ TaxLine.rates lines, bps (TaxLine.base lines r) r
  vatOf : ∀ r ∈ TaxLine.rates lines,
    applyBps (TaxLine.base lines r) r "IVA" = .ok (bps (TaxLine.base lines r) r)
  service : applyBps b.subtotalMinor b.serviceChargeBps "Service charge" = .ok b.serviceChargeMinor
  total : b.totalDue = b.subtotalMinor + b.vatMinor + b.serviceChargeMinor
  rate : parseRate (b.fxRateVesPerUnit.getD RATE_SCALE) = .ok b.scaledRate
  totalVes : applyRate b.totalDue b.scaledRate "Bill total in VES" = .ok b.totalDueVes

/-- The figures that a bill is charged by. -/
def Bill.figures (b : Bill) : Int × Int × Int × Int × Int :=
  (b.subtotalMinor, b.vatMinor, b.serviceChargeMinor, b.totalDue, b.totalDueVes)

variable {b b' : Bill} {lines : Multiset TaxLine}

theorem Bill.Itemised.priceOf (h : b.Itemised lines) : b.totalDueVes = b.priceOf lines := by
  obtain ⟨-, hservice⟩ := applyBps_eq_ok h.service
  rw [applyRate_eq_ok h.totalVes, h.total, hservice, h.subtotal, h.vat]
  rfl

/-- The lines and the frozen rates determine the figures. -/
theorem Bill.Itemised.unique (h : b.Itemised lines) (h' : b'.Itemised lines)
    (hservice : b.serviceChargeBps = b'.serviceChargeBps)
    (hrate : b.fxRateVesPerUnit = b'.fxRateVesPerUnit) : b.figures = b'.figures := by
  have hsub : b.subtotalMinor = b'.subtotalMinor := h.subtotal.trans h'.subtotal.symm
  have hvat : b.vatMinor = b'.vatMinor := h.vat.trans h'.vat.symm
  have hcharge : b.serviceChargeMinor = b'.serviceChargeMinor := by
    rw [(applyBps_eq_ok h.service).2, (applyBps_eq_ok h'.service).2, hsub, hservice]
  have htotal : b.totalDue = b'.totalDue := by rw [h.total, h'.total, hsub, hvat, hcharge]
  have hves : b.totalDueVes = b'.totalDueVes := by
    rw [h.priceOf, h'.priceOf, Bill.priceOf, Bill.priceOf, Bill.scaledRate, Bill.scaledRate, hservice,
      hrate]
  simp only [Bill.figures, hsub, hvat, hcharge, htotal, hves]

theorem Bill.Itemised.nonneg (h : b.Itemised lines) (hline : ∀ l ∈ lines, 0 ≤ l.subtotalMinor) :
    TaxLine.Nonneg lines := fun l hl =>
  ⟨hline l hl, (applyBps_eq_ok (h.vatOf l.vatBps (Multiset.mem_toFinset.mpr
    (Multiset.mem_map.mpr ⟨l, hl, rfl⟩)))).1⟩

/-- Lines that pass the checks of the table cost nothing negative. -/
theorem Bill.Itemised.nonneg_of_valid {s : Db} {k : Uuid} (h : b.Itemised (s.lines k))
    (hvalid : ∀ i ∈ s.itemsOf k, i.violated = none) : TaxLine.Nonneg (s.lines k) := by
  refine h.nonneg fun l hl => ?_
  obtain ⟨i, hi, rfl⟩ := List.mem_map.mp (Multiset.mem_coe.mp hl)
  exact BillItem.subtotal_nonneg (hvalid i hi)

/-! ## `recalculateTotals` -/

section Recalculate

variable {s s' : Db} {items : List BillItem} {tax : TaxSummary}

/-- The rates of the query, in its order. -/
def sortedRates (items : List BillItem) : List Int :=
  (items.map fun i => i.vatBps.getD 0).dedup.insertionSort (· ≤ ·)

theorem sum_sortedRates (f : Int → Int) :
    ((sortedRates items).map f).sum = ∑ r ∈ TaxLine.rates (items.map BillItem.taxLine), f r := by
  have hnodup : (sortedRates items).Nodup :=
    (List.perm_insertionSort _ _).nodup_iff.mpr (List.nodup_dedup _)
  have hrates : TaxLine.rates (items.map BillItem.taxLine) = (sortedRates items).toFinset := by
    ext r
    simp [TaxLine.rates, BillItem.taxLine, sortedRates]
  rw [hrates, List.sum_toFinset _ hnodup]

theorem sum_group (items : List BillItem) (r : Int) :
    ((items.filter fun i => i.vatBps.getD 0 = r).map (·.subtotalMinor)).sum =
      TaxLine.base (items.map BillItem.taxLine) r := by
  simp only [TaxLine.base, Multiset.map_coe, Multiset.sum_coe, List.map_map]
  induction items with
  | nil => rfl
  | cons i items ih =>
    by_cases hi : i.vatBps.getD 0 = r
    · simp [hi, ih, BillItem.taxLine]
    · simp [hi, ih, BillItem.taxLine]

/-- The groups of the query are the bases of the rates. -/
theorem summariseTaxGroups_ok (h : summariseTaxGroups (taxGroupRows items) = .ok tax) :
    let lines : Multiset TaxLine := items.map BillItem.taxLine
    tax.subtotal = TaxLine.subtotal lines ∧ tax.vat = TaxLine.vat lines ∧
      ∀ r ∈ TaxLine.rates lines,
        applyBps (TaxLine.base lines r) r "IVA" = .ok (bps (TaxLine.base lines r) r) := by
  intro lines
  obtain ⟨groups, hgroups, hret⟩ := Except.bind_eq_ok.mp h
  cases hret
  have hrow : List.Forall₂ (fun r g =>
      applyBps (TaxLine.base lines r) r "IVA" = .ok (bps (TaxLine.base lines r) r) ∧
        (⟨r, TaxLine.base lines r, bps (TaxLine.base lines r) r⟩ : TaxGroup) = g)
      (sortedRates items) groups := by
    refine (List.forall₂_map_left_iff.mp (Except.mapM_eq_ok hgroups)).imp fun r g hg => ?_
    obtain ⟨v, hv, hg⟩ := Except.bind_eq_ok.mp hg
    cases hg
    simp only [sum_group] at hv ⊢
    obtain ⟨-, rfl⟩ := applyBps_eq_ok hv
    exact ⟨hv, rfl⟩
  obtain ⟨hvat, hgroup⟩ := (List.forall₂_and_left _ _).mp hrow
  obtain rfl : (sortedRates items).map _ = groups := by
    rw [← List.forall₂_eq_eq_eq, List.forall₂_map_left_iff]
    exact hgroup
  refine ⟨?_, ?_, fun r hr => hvat r ?_⟩
  · rw [← TaxLine.sum_base (subset_refl (TaxLine.rates lines)), ← sum_sortedRates]
    simp only [List.map_map]
    rfl
  · rw [TaxLine.vat, ← sum_sortedRates]
    simp only [List.map_map]
    rfl
  · simpa [TaxLine.rates, BillItem.taxLine, sortedRates, lines] using hr

/-- What `recalculateTotals` writes are the figures of the lines. -/
theorem recalculateTotals_itemised {bill updated : Bill}
    (h : (recalculateTotals bill).run s = .ok updated s') :
    updated.Itemised (s.lines bill.id) ∧ updated.withTotals bill = updated ∧
      (∀ b, s.bills.find? bill.id = some b → (updated.withTotals b).violated = none) ∧
      ∃ splits, s' = { s with
        bills := s.bills.update bill.id (Bill.withTotals updated) fun _ => rfl
        splits } := by
  unfold recalculateTotals at h
  simp only [Tx.bind_ok, Tx.run_get, Tx.ofExcept_ok, Tx.require_ok] at h
  obtain ⟨_, _, ⟨rfl, rfl⟩, tax, _, ⟨htax, rfl⟩, service, _, ⟨hservice, rfl⟩, rate, _, ⟨hrate, rfl⟩,
    total, _, ⟨htotal, rfl⟩, _, s, ⟨-, rfl⟩, _, s₁, hup, h⟩ := h
  obtain ⟨rfl, hchecked⟩ := updateBill_ok hup
  obtain ⟨hsub, hvat, hvats⟩ := summariseTaxGroups_ok htax
  obtain ⟨-, rfl⟩ := parseRate_eq_ok hrate
  have hitemised : ∀ updated : Bill, updated = { bill with
      subtotalMinor := tax.subtotal, vatMinor := tax.vat, serviceChargeMinor := service,
      totalDue := tax.subtotal + tax.vat + service, totalDueVes := total } →
      updated.Itemised (s.lines bill.id) := by
    rintro _ rfl
    exact ⟨hsub, hvat, hvats, hservice, rfl, hrate, htotal⟩
  split at h
  · simp only [Tx.bind_ok, markSplitsStale, Tx.run_modify, Tx.pure_ok] at h
    obtain ⟨_, _, ⟨rfl, rfl⟩, rfl, rfl⟩ := h
    exact ⟨hitemised _ rfl, rfl, hchecked, _, rfl⟩
  · obtain ⟨rfl, rfl⟩ := Tx.pure_ok.mp h
    exact ⟨hitemised _ rfl, rfl, hchecked, _, rfl⟩

end Recalculate

end Splite
