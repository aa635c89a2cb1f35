import Splite.Fiscal.Drafts
import Splite.Fiscal.Itemised
import Splite.Ledger.Opened
import Splite.Lib.Grouping

/-!
# The bags of a bill and what its invoices take out of them

* `FiscalState.less_iff`: no bag is overdrawn and the rest is what was there less the invoices exactly
  when the bags cover what the invoices declare.
* `FiscalState.covers_concat`: one more invoice is covered when what the others leave covers it.
* `initialState_ok`: the bags of a bill that is ordered on add up to what is due.
* `buildDraft_whole`: a draft declares its total, and nothing negative.
-/

namespace Splite

/-! ## Bags and invoices -/

/-- A draft declares its total, and nothing negative. -/
structure InvoiceDraft.Whole (d : InvoiceDraft) : Prop where
  rate : ∀ t ∈ d.taxes, 0 ≤ t.vatBps
  base : ∀ t ∈ d.taxes, 0 ≤ t.baseMinor
  vat : ∀ t ∈ d.taxes, 0 ≤ t.vatMinor
  service : 0 ≤ d.serviceMinor
  total : d.totalMinor = (d.taxes.map fun t => t.baseMinor + t.vatMinor).sum + d.serviceMinor

/-- The bags hold what documents declare, at the rates that they declare anything at. -/
structure FiscalState.Covers (state : FiscalState) (documents : List FiscalDocument) : Prop where
  base : ∀ t ∈ documents.flatMap (·.taxes),
    declaredBase documents t.vatBps.toNat ≤ baseAt t.vatBps.toNat state.groups
  vat : ∀ t ∈ documents.flatMap (·.taxes),
    declaredVat documents t.vatBps.toNat ≤ vatAt t.vatBps.toNat state.groups
  service : declaredService documents ≤ state.serviceMinor

instance (state : FiscalState) (documents : List FiscalDocument) : Decidable (state.Covers documents) :=
  decidable_of_iff ((∀ t ∈ documents.flatMap (·.taxes),
      declaredBase documents t.vatBps.toNat ≤ baseAt t.vatBps.toNat state.groups) ∧
    (∀ t ∈ documents.flatMap (·.taxes),
      declaredVat documents t.vatBps.toNat ≤ vatAt t.vatBps.toNat state.groups) ∧
    declaredService documents ≤ state.serviceMinor)
    ⟨fun ⟨hb, hv, hs⟩ => ⟨hb, hv, hs⟩, fun h => ⟨h.base, h.vat, h.service⟩⟩

/-- The bags are at pairwise different rates. -/
def FiscalState.Distinct (state : FiscalState) : Prop := (state.groups.map (·.vatBps)).Nodup

section Columns

variable {groups : List FiscalGroup} {taxes : List DraftTax} {f : DraftTax → Int}
  {column : FiscalGroup → Int} {rate : Nat}

/-- Rows are at one of some pairwise different rates, or at another one. -/
theorem sum_at_rates (taxes : List DraftTax) (f : DraftTax → Int) {rates : List Nat} (h : rates.Nodup) :
    (rates.map fun r : Nat => ((taxes.filter (·.vatBps = (r : Int))).map f).sum).sum +
        ((taxes.filter fun t => ∀ r ∈ rates, t.vatBps ≠ (r : Int)).map f).sum =
      (taxes.map f).sum := by
  rw [← sum_at_keys (·.vatBps) taxes f (h.map Nat.cast_injective), List.map_map]
  congr 4
  funext t
  simp only [List.mem_map, not_exists, not_and]
  exact decide_eq_decide.mpr (forall₂_congr fun r _ => ne_comm)

/-- What the groups of one rate hold, where there is one of them. -/
theorem column_of_mem (h : (groups.map (·.vatBps)).Nodup) {g : FiscalGroup} (hg : g ∈ groups) :
    ((groups.filter (·.vatBps = g.vatBps)).map column).sum = column g := by
  induction groups with
  | nil => cases hg
  | cons g₀ groups ih =>
    obtain ⟨hne, hnodup⟩ := List.nodup_cons.mp h
    rcases List.mem_cons.mp hg with rfl | hg
    · have hnil : groups.filter (·.vatBps = g.vatBps) = [] := by
        refine List.filter_eq_nil_iff.mpr fun g' hg' => ?_
        simp only [decide_eq_true_eq]
        exact fun heq => hne (List.mem_map.mpr ⟨g', hg', heq⟩)
      simp [hnil]
    · have hrate : g₀.vatBps ≠ g.vatBps := fun heq => hne (List.mem_map.mpr ⟨g, hg, heq.symm⟩)
      simp only [List.filter_cons, hrate, decide_false, Bool.false_eq_true, if_false]
      exact ih hnodup hg

theorem column_of_not_mem (h : ∀ g ∈ groups, g.vatBps ≠ rate) :
    ((groups.filter (·.vatBps = rate)).map column).sum = 0 := by
  rw [List.filter_eq_nil_iff.mpr fun g hg => by simpa using h g hg]
  rfl

/-- Rows that declare nothing at rates without a group. -/
theorem nothing_at_other (h : ∀ t ∈ taxes, (∀ g ∈ groups, t.vatBps ≠ (g.vatBps : Int)) → f t = 0)
    (hnone : ∀ g ∈ groups, g.vatBps ≠ rate) :
    ((taxes.filter (·.vatBps = (rate : Int))).map f).sum = 0 := by
  refine List.sum_eq_zero fun x hx => ?_
  obtain ⟨t, ht, rfl⟩ := List.mem_map.mp hx
  obtain ⟨hmem, hrate⟩ := List.mem_filter.mp ht
  have hrate : t.vatBps = (rate : Int) := of_decide_eq_true hrate
  refine h t hmem fun g hg heq => hnone g hg ?_
  omega

/-- At the rates of some rows the groups hold what the rows declare exactly when every group does, and
rows at other rates declare nothing. -/
theorem covers_iff (hnodup : (groups.map (·.vatBps)).Nodup) (hcolumn : ∀ g ∈ groups, 0 ≤ column g)
    (hrate : ∀ t ∈ taxes, 0 ≤ t.vatBps) (hf : ∀ t ∈ taxes, 0 ≤ f t) :
    (∀ t ∈ taxes, ((taxes.filter (·.vatBps = (t.vatBps.toNat : Int))).map f).sum ≤
        ((groups.filter (·.vatBps = t.vatBps.toNat)).map column).sum) ↔
      (∀ g ∈ groups, ((taxes.filter (·.vatBps = (g.vatBps : Int))).map f).sum ≤ column g) ∧
        ∀ t ∈ taxes, (∀ g ∈ groups, t.vatBps ≠ (g.vatBps : Int)) → f t = 0 := by
  have hat : ∀ (r : Nat), ∀ x ∈ (taxes.filter (·.vatBps = (r : Int))).map f, 0 ≤ x := by
    intro r x hx
    obtain ⟨t, ht, rfl⟩ := List.mem_map.mp hx
    exact hf t (List.mem_of_mem_filter ht)
  constructor
  · intro h
    refine ⟨fun g hg => ?_, fun t ht hother => ?_⟩
    · cases hrows : taxes.filter (·.vatBps = (g.vatBps : Int)) with
      | nil => exact hcolumn g hg
      | cons t rows =>
        obtain ⟨ht, hrate⟩ := List.mem_filter.mp (hrows ▸ List.mem_cons_self (a := t))
        have hat := h t ht
        have htoNat : t.vatBps.toNat = g.vatBps := by
          have := of_decide_eq_true hrate
          omega
        rw [htoNat, column_of_mem hnodup hg, hrows] at hat
        exact hat
    · have hle := h t ht
      have hnone : ∀ g ∈ groups, g.vatBps ≠ t.vatBps.toNat := by
        intro g hg heq
        have := hrate t ht
        exact hother g hg (by omega)
      rw [column_of_not_mem hnone] at hle
      have hmem : f t ∈ (taxes.filter (·.vatBps = (t.vatBps.toNat : Int))).map f := by
        have := hrate t ht
        exact List.mem_map_of_mem (List.mem_filter.mpr ⟨ht, by simp; omega⟩)
      have := List.single_le_sum (hat _) _ hmem
      have := hf t ht
      omega
  · rintro ⟨hgroups, hother⟩ t ht
    by_cases hin : ∃ g ∈ groups, g.vatBps = t.vatBps.toNat
    · obtain ⟨g, hg, heq⟩ := hin
      rw [← heq, column_of_mem hnodup hg]
      exact hgroups g hg
    · push Not at hin
      rw [column_of_not_mem hin, nothing_at_other hother hin]

/-- What rows leave of the groups at one rate. -/
theorem column_less (hnodup : (groups.map (·.vatBps)).Nodup) (declared : Nat → Int)
    (h : (∀ g ∈ groups, g.vatBps ≠ rate) → declared rate = 0) :
    ((groups.filter (·.vatBps = rate)).map fun g => column g - declared g.vatBps).sum =
      ((groups.filter (·.vatBps = rate)).map column).sum - declared rate := by
  by_cases hin : ∃ g ∈ groups, g.vatBps = rate
  · obtain ⟨g, hg, rfl⟩ := hin
    rw [column_of_mem hnodup hg, column_of_mem hnodup hg]
  · push Not at hin
    rw [column_of_not_mem hin, column_of_not_mem hin, h hin, sub_zero]

/-- More rows are held along with the ones before exactly when what these leave holds them. -/
theorem holds_append_iff (more : List DraftTax) (hnodup : (groups.map (·.vatBps)).Nodup)
    (hholds : ∀ t ∈ taxes, ((taxes.filter (·.vatBps = (t.vatBps.toNat : Int))).map f).sum ≤
      ((groups.filter (·.vatBps = t.vatBps.toNat)).map column).sum)
    (hother : ∀ t ∈ taxes, (∀ g ∈ groups, t.vatBps ≠ (g.vatBps : Int)) → f t = 0) :
    (∀ t ∈ taxes ++ more, (((taxes ++ more).filter (·.vatBps = (t.vatBps.toNat : Int))).map f).sum ≤
        ((groups.filter (·.vatBps = t.vatBps.toNat)).map column).sum) ↔
      ∀ t ∈ more, ((more.filter (·.vatBps = (t.vatBps.toNat : Int))).map f).sum ≤
        ((groups.filter (·.vatBps = t.vatBps.toNat)).map fun g => column g -
          ((taxes.filter (·.vatBps = (g.vatBps : Int))).map f).sum).sum := by
  have hleft : ∀ rate : Nat, ((groups.filter (·.vatBps = rate)).map fun g => column g -
      ((taxes.filter (·.vatBps = (g.vatBps : Int))).map f).sum).sum =
      ((groups.filter (·.vatBps = rate)).map column).sum -
        ((taxes.filter (·.vatBps = (rate : Int))).map f).sum := fun rate =>
    column_less hnodup (fun r : Nat => ((taxes.filter (·.vatBps = (r : Int))).map f).sum)
      (nothing_at_other hother)
  simp only [hleft, List.filter_append, List.map_append, List.sum_append]
  constructor
  · intro h t ht
    have := h t (List.mem_append_right _ ht)
    omega
  · intro h t ht
    by_cases hsame : ∃ t' ∈ more, t'.vatBps.toNat = t.vatBps.toNat
    · obtain ⟨t', ht', heq⟩ := hsame
      have := h t' ht'
      rw [heq] at this
      omega
    · push Not at hsame
      have hnil : more.filter (·.vatBps = (t.vatBps.toNat : Int)) = [] := by
        refine List.filter_eq_nil_iff.mpr fun t' ht' => ?_
        have := hsame t' ht'
        simp only [decide_eq_true_eq]
        omega
      rcases List.mem_append.mp ht with ht | ht
      · rw [hnil, List.map_nil, List.sum_nil, add_zero]
        exact hholds t ht
      · exact absurd rfl (hsame t ht)

end Columns

section Less

variable {state : FiscalState} {documents : List FiscalDocument}

/-- What documents declare of the bags is gone from what is outstanding. -/
theorem outstandingOf_less (state : FiscalState) (documents : List FiscalDocument) :
    outstandingOf (state.less documents) + (state.groups.map fun g =>
        declaredBase documents g.vatBps + declaredVat documents g.vatBps).sum +
      declaredService documents = outstandingOf state := by
  obtain ⟨groups, service⟩ := state
  simp only [outstandingOf, FiscalState.less, List.map_map, Function.comp_def]
  induction groups with
  | nil => simp
  | cons g groups ih =>
    simp only [List.map_cons, List.sum_cons] at ih ⊢
    omega

/-- The totals of documents are the rows of their breakdowns and their service. -/
theorem sum_totals (hd : ∀ d ∈ documents, d.Whole) :
    (documents.map (·.totalMinor)).sum =
      ((documents.flatMap (·.taxes)).map fun t => t.baseMinor + t.vatMinor).sum +
        declaredService documents := by
  induction documents with
  | nil => rfl
  | cons d documents ih =>
    obtain ⟨hwhole, hrest⟩ := List.forall_mem_cons.mp hd
    have ih := ih hrest
    have htotal := hwhole.total
    simp only [declaredService, List.map_cons, List.sum_cons, List.flatMap_cons, List.map_append,
      List.sum_append] at ih ⊢
    omega

theorem sum_rows_eq_zero_iff {rows : List DraftTax} (hbase : ∀ t ∈ rows, 0 ≤ t.baseMinor)
    (hvat : ∀ t ∈ rows, 0 ≤ t.vatMinor) :
    (rows.map fun t => t.baseMinor + t.vatMinor).sum = 0 ↔
      ∀ t ∈ rows, t.baseMinor = 0 ∧ t.vatMinor = 0 := by
  constructor
  · intro hzero t ht
    have hnonneg : ∀ x ∈ rows.map fun t => t.baseMinor + t.vatMinor, 0 ≤ x := by
      intro x hx
      obtain ⟨t', ht', rfl⟩ := List.mem_map.mp hx
      exact add_nonneg (hbase t' ht') (hvat t' ht')
    have hall := List.all_zero_of_le_zero_le_of_sum_eq_zero hnonneg hzero (List.mem_map_of_mem ht)
    have := hbase t ht
    have := hvat t ht
    omega
  · intro hzero
    refine List.sum_eq_zero fun x hx => ?_
    obtain ⟨t, ht, rfl⟩ := List.mem_map.mp hx
    obtain ⟨hb, hv⟩ := hzero t ht
    rw [hb, hv, add_zero]

/-- No bag is overdrawn and the rest is what was there less the documents exactly when the bags cover
what the documents declare. -/
theorem FiscalState.less_iff (hs : state.Nonneg) (hdistinct : state.Distinct)
    (hd : ∀ d ∈ documents, d.Whole) :
    ((state.less documents).Nonneg ∧ outstandingOf (state.less documents) =
      outstandingOf state - (documents.map (·.totalMinor)).sum) ↔ state.Covers documents := by
  set taxes := documents.flatMap (·.taxes) with htaxes
  have hof : ∀ t ∈ taxes, ∃ d ∈ documents, t ∈ d.taxes := fun t ht => List.mem_flatMap.mp ht
  have hrate : ∀ t ∈ taxes, 0 ≤ t.vatBps := fun t ht => by
    obtain ⟨d, hmem, ht⟩ := hof t ht
    exact (hd d hmem).rate t ht
  have hbase : ∀ t ∈ taxes, 0 ≤ t.baseMinor := fun t ht => by
    obtain ⟨d, hmem, ht⟩ := hof t ht
    exact (hd d hmem).base t ht
  have hvat : ∀ t ∈ taxes, 0 ≤ t.vatMinor := fun t ht => by
    obtain ⟨d, hmem, ht⟩ := hof t ht
    exact (hd d hmem).vat t ht
  have hbases := covers_iff hdistinct (fun g hg => (hs.groups g hg).base) hrate hbase
  have hvats := covers_iff hdistinct (fun g hg => (hs.groups g hg).vat) hrate hvat
  -- What is declared at rates without a bag is what the two sums differ by.
  set rates := state.groups.map (·.vatBps) with hrates
  set others := taxes.filter fun t => ∀ r ∈ rates, t.vatBps ≠ (r : Int) with hothers
  have hsum := sum_at_rates taxes (fun t => t.baseMinor + t.vatMinor)
    (show rates.Nodup from hdistinct)
  have hgroups : (state.groups.map fun g =>
      declaredBase documents g.vatBps + declaredVat documents g.vatBps).sum =
      (rates.map fun r : Nat =>
        ((taxes.filter (·.vatBps = (r : Int))).map fun t => t.baseMinor + t.vatMinor).sum).sum := by
    rw [hrates, List.map_map]
    refine congrArg List.sum (List.map_congr_left fun g _ => ?_)
    exact (List.sum_map_add ..).symm
  have hout := outstandingOf_less state documents
  have htotals := sum_totals hd
  rw [← htaxes] at htotals
  rw [← hgroups, ← hothers] at hsum
  have hlaw : outstandingOf (state.less documents) =
      outstandingOf state - (documents.map (·.totalMinor)).sum ↔
      ∀ t ∈ taxes, (∀ g ∈ state.groups, t.vatBps ≠ (g.vatBps : Int)) →
        t.baseMinor = 0 ∧ t.vatMinor = 0 := by
    have hmem : ∀ t ∈ others, t ∈ taxes := fun t ht => (List.mem_filter.mp ht).1
    have hiff := sum_rows_eq_zero_iff (fun t ht => hbase t (hmem t ht)) fun t ht => hvat t (hmem t ht)
    rw [show outstandingOf (state.less documents) =
        outstandingOf state - (documents.map (·.totalMinor)).sum ↔
        (others.map fun t => t.baseMinor + t.vatMinor).sum = 0 by constructor <;> intro h <;> omega, hiff]
    simp only [hothers, hrates, List.mem_filter, decide_eq_true_eq, and_imp, List.forall_mem_map]
  rw [hlaw]
  constructor
  · rintro ⟨hnonneg, hother⟩
    have hless : ∀ g ∈ state.groups, declaredBase documents g.vatBps ≤ g.baseMinor ∧
        declaredVat documents g.vatBps ≤ g.vatMinor := fun g hg => by
      have hg' := hnonneg.groups _ (List.mem_map_of_mem hg)
      exact ⟨sub_nonneg.mp hg'.base, sub_nonneg.mp hg'.vat⟩
    exact ⟨hbases.mpr ⟨fun g hg => (hless g hg).1, fun t ht h => (hother t ht h).1⟩,
      hvats.mpr ⟨fun g hg => (hless g hg).2, fun t ht h => (hother t ht h).2⟩,
      sub_nonneg.mp hnonneg.service⟩
  · intro hcovers
    obtain ⟨hbg, hbo⟩ := hbases.mp hcovers.base
    obtain ⟨hvg, hvo⟩ := hvats.mp hcovers.vat
    refine ⟨⟨fun g hg => ?_, sub_nonneg.mpr hcovers.service⟩, fun t ht h => ⟨hbo t ht h, hvo t ht h⟩⟩
    obtain ⟨g₀, hg₀, rfl⟩ := List.mem_map.mp hg
    exact ⟨sub_nonneg.mpr (hbg g₀ hg₀), sub_nonneg.mpr (hvg g₀ hg₀)⟩

/-- One more document is covered along with the others exactly when what these leave covers it. -/
theorem FiscalState.covers_concat {d : FiscalDocument} (hs : state.Nonneg) (hdistinct : state.Distinct)
    (hd : ∀ d ∈ documents, d.Whole) (h : state.Covers documents) :
    state.Covers (documents ++ [d]) ↔ (state.less documents).Covers [d] := by
  set taxes := documents.flatMap (·.taxes) with htaxes
  have hof : ∀ t ∈ taxes, ∃ d ∈ documents, t ∈ d.taxes := fun t ht => List.mem_flatMap.mp ht
  have hrate : ∀ t ∈ taxes, 0 ≤ t.vatBps := fun t ht => by
    obtain ⟨d, hmem, ht⟩ := hof t ht
    exact (hd d hmem).rate t ht
  have hbase := holds_append_iff d.taxes hdistinct h.base
    ((covers_iff hdistinct (fun g hg => (hs.groups g hg).base) hrate fun t ht => by
      obtain ⟨d, hmem, ht⟩ := hof t ht
      exact (hd d hmem).base t ht).mp h.base).2
  have hvat := holds_append_iff d.taxes hdistinct h.vat
    ((covers_iff hdistinct (fun g hg => (hs.groups g hg).vat) hrate fun t ht => by
      obtain ⟨d, hmem, ht⟩ := hof t ht
      exact (hd d hmem).vat t ht).mp h.vat).2
  have hall : (documents ++ [d]).flatMap (·.taxes) = taxes ++ d.taxes := by
    rw [List.flatMap_append, List.flatMap_singleton]
  have hone : [d].flatMap (·.taxes) = d.taxes := List.flatMap_singleton ..
  have hbases : ∀ rate, baseAt rate (state.less documents).groups =
      ((state.groups.filter (·.vatBps = rate)).map fun g =>
        g.baseMinor - declaredBase documents g.vatBps).sum := fun rate => by
    simp only [baseAt, FiscalState.less, List.filter_map, List.map_map]
    rfl
  have hvats : ∀ rate, vatAt rate (state.less documents).groups =
      ((state.groups.filter (·.vatBps = rate)).map fun g =>
        g.vatMinor - declaredVat documents g.vatBps).sum := fun rate => by
    simp only [vatAt, FiscalState.less, List.filter_map, List.map_map]
    rfl
  have hservice : declaredService (documents ++ [d]) = declaredService documents + declaredService [d] := by
    simp [declaredService]
  simp only [declaredBase, taxesAt, ← htaxes] at hbases hvats
  have hleft : (state.less documents).serviceMinor = state.serviceMinor - declaredService documents := rfl
  have hb : (∀ t ∈ (documents ++ [d]).flatMap (·.taxes),
      declaredBase (documents ++ [d]) t.vatBps.toNat ≤ baseAt t.vatBps.toNat state.groups) ↔
      ∀ t ∈ [d].flatMap (·.taxes),
        declaredBase [d] t.vatBps.toNat ≤ baseAt t.vatBps.toNat (state.less documents).groups := by
    simp only [declaredBase, taxesAt, hall, hone, hbases]
    exact hbase
  have hv : (∀ t ∈ (documents ++ [d]).flatMap (·.taxes),
      declaredVat (documents ++ [d]) t.vatBps.toNat ≤ vatAt t.vatBps.toNat state.groups) ↔
      ∀ t ∈ [d].flatMap (·.taxes),
        declaredVat [d] t.vatBps.toNat ≤ vatAt t.vatBps.toNat (state.less documents).groups := by
    simp only [declaredVat, taxesAt, hall, hone, hvats]
    exact hvat
  refine ⟨fun hc => ⟨hb.mp hc.base, hv.mp hc.vat, ?_⟩, fun hc => ⟨hb.mpr hc.base, hv.mpr hc.vat, ?_⟩⟩
  · have := hc.service
    omega
  · have := hc.service
    omega

end Less

/-! ## The bags of a bill before anything is declared -/

/-- Bags that hold a total, at pairwise different rates. -/
structure FiscalState.Holds (state : FiscalState) (total : Int) : Prop where
  nonneg : state.Nonneg
  distinct : state.Distinct
  total : outstandingOf state = total

section Lines

variable {items : List BillItem}

theorem vatBps_nonneg (h : TaxLine.Nonneg (items.map BillItem.taxLine)) {i : BillItem} (hi : i ∈ items) :
    0 ≤ i.vatBps.getD 0 :=
  (h i.taxLine (List.mem_map_of_mem hi)).2

/-- The lines at one rate. -/
theorem sum_line_group (h : TaxLine.Nonneg (items.map BillItem.taxLine)) (r : Nat) :
    (((items.map BillItem.line).filter (·.vatBps = r)).map (·.subtotalMinor)).sum =
      TaxLine.base (items.map BillItem.taxLine) r := by
  rw [← sum_group, List.filter_map, List.map_map]
  refine congrArg (fun l => (l.map BillItem.subtotalMinor).sum) (List.filter_congr fun i hi => ?_)
  have := vatBps_nonneg h hi
  show decide ((i.vatBps.getD 0).toNat = r) = decide (i.vatBps.getD 0 = (r : Int))
  rw [decide_eq_decide]
  omega

/-- The rates that `stateFromLines` sorts are those of the lines. -/
theorem sum_line_rates (h : TaxLine.Nonneg (items.map BillItem.taxLine)) (f : Int → Int) :
    ((((items.map BillItem.line).map (·.vatBps)).dedup.insertionSort (· ≤ ·)).map fun r : Nat =>
      f r).sum = ∑ r ∈ TaxLine.rates (items.map BillItem.taxLine), f r := by
  set rates := ((items.map BillItem.line).map (·.vatBps)).dedup.insertionSort (· ≤ ·) with hrates
  have hnodup : rates.Nodup := (List.perm_insertionSort _ _).nodup_iff.mpr (List.nodup_dedup _)
  have hset : TaxLine.rates (items.map BillItem.taxLine) =
      (rates.map fun r : Nat => (r : Int)).toFinset := by
    ext r
    simp only [TaxLine.rates, hrates, Multiset.map_coe, List.map_map, Multiset.mem_toFinset,
      Multiset.mem_coe, List.mem_map, List.mem_toFinset, List.mem_insertionSort, List.mem_dedup,
      Function.comp_apply]
    constructor
    · rintro ⟨i, hi, rfl⟩
      exact ⟨_, ⟨i, hi, rfl⟩, Int.toNat_of_nonneg (vatBps_nonneg h hi)⟩
    · rintro ⟨_, ⟨i, hi, rfl⟩, rfl⟩
      exact ⟨i, hi, (Int.toNat_of_nonneg (vatBps_nonneg h hi)).symm⟩
  rw [hset, List.sum_toFinset _ (hnodup.map Nat.cast_injective), List.map_map]
  rfl

/-- The bags of lines whose VAT is in bounds. -/
theorem stateFromLines_ok {service : Int} (h : TaxLine.Nonneg (items.map BillItem.taxLine))
    (hvat : ∀ r ∈ TaxLine.rates (items.map BillItem.taxLine),
      applyBps (TaxLine.base (items.map BillItem.taxLine) r) r "IVA" =
        .ok (bps (TaxLine.base (items.map BillItem.taxLine) r) r)) (hservice : 0 ≤ service) :
    ∃ state, stateFromLines (items.map BillItem.line) service = .ok state ∧
      state.Holds (TaxLine.subtotal (items.map BillItem.taxLine) +
        TaxLine.vat (items.map BillItem.taxLine) + service) := by
  set lines : Multiset TaxLine := ↑(items.map BillItem.taxLine) with hlines
  set rates := ((items.map BillItem.line).map (·.vatBps)).dedup.insertionSort (· ≤ ·) with hrates
  have hmem : ∀ r ∈ rates, (r : Int) ∈ TaxLine.rates lines := by
    intro r hr
    obtain ⟨l, hl, rfl⟩ := List.mem_map.mp (List.mem_dedup.mp ((List.mem_insertionSort _).mp hr))
    obtain ⟨i, hi, rfl⟩ := List.mem_map.mp hl
    refine Multiset.mem_toFinset.mpr (Multiset.mem_map.mpr ⟨i.taxLine, List.mem_map_of_mem hi, ?_⟩)
    exact (Int.toNat_of_nonneg (vatBps_nonneg h hi)).symm
  obtain ⟨groups, hgroups, hall⟩ := Except.mapM_ok (f := rateGroup (items.map BillItem.line))
    (P := fun r g => (⟨r, TaxLine.base lines r, bps (TaxLine.base lines r) r⟩ : FiscalGroup) = g)
    (l := rates) fun r hr => by
      unfold rateGroup
      rw [sum_line_group h, ← hlines]
      dsimp only
      rw [hvat r (hmem r hr)]
      exact ⟨_, rfl, rfl⟩
  obtain rfl : rates.map _ = groups := by
    rw [← List.forall₂_eq_eq_eq, List.forall₂_map_left_iff]
    exact hall
  refine ⟨_, by rw [stateFromLines, ← hrates, hgroups]; rfl, ⟨⟨fun g hg => ?_, hservice⟩, ?_, ?_⟩⟩
  · obtain ⟨r, hr, rfl⟩ := List.mem_map.mp hg
    have hbase : 0 ≤ TaxLine.base lines r := TaxLine.base_nonneg h
    exact ⟨hbase, roundHalfAway_nonneg (by decide) (mul_nonneg hbase (Int.natCast_nonneg r))⟩
  · unfold FiscalState.Distinct
    rw [List.map_map]
    exact (List.map_id rates).symm ▸ (List.perm_insertionSort _ _).nodup_iff.mpr (List.nodup_dedup _)
  · simp only [outstandingOf, List.map_map, Function.comp_def]
    rw [sum_line_rates h fun r => TaxLine.base lines r + bps (TaxLine.base lines r) r,
      Finset.sum_add_distrib, TaxLine.sum_base subset_rfl]
    rfl

end Lines

section Spread

variable {state : FiscalState} {groups : List FiscalGroup} {parts : List Int}

/-- Pairs of parts and the last one. -/
theorem sum_pairs : ∀ {n : Nat} {parts : List Int}, parts.length = 2 * n + 1 →
    ((List.range n).map fun i => parts.getD (i * 2) 0 + parts.getD (i * 2 + 1) 0).sum +
      parts.getD (2 * n) 0 = parts.sum
  | 0, [p], _ => by simp
  | n + 1, x :: y :: parts, h => by
    have ih := @sum_pairs n parts (by simpa [mul_add] using h)
    rw [List.range_succ_eq_map, List.map_cons, List.map_map, List.sum_cons]
    have hshift : ((fun i => (x :: y :: parts).getD (i * 2) 0 + (x :: y :: parts).getD (i * 2 + 1) 0) ∘
        Nat.succ) = fun i => parts.getD (i * 2) 0 + parts.getD (i * 2 + 1) 0 := by
      funext i
      simp [Nat.succ_mul]
    rw [hshift, show 2 * (n + 1) = 2 * n + 1 + 1 by ring]
    simp only [List.getD_cons_succ, List.getD_cons_zero, List.sum_cons, zero_mul, zero_add]
    omega

theorem sum_zipIdx (f : Nat → Int) : (groups.zipIdx.map fun x => f x.2).sum =
    ((List.range groups.length).map f).sum := by
  rw [show (fun x : FiscalGroup × Nat => f x.2) = f ∘ Prod.snd from rfl, ← List.map_map,
    List.zipIdx_map_snd, List.range_eq_range']

/-- The total in bolívares is spread over the bags, whole. -/
theorem toVes_ok {total totalVes : Int} (h : state.Holds total) (htotal : total = 0 → totalVes = 0)
    (h0 : 0 ≤ totalVes) : ∃ state', toVes state totalVes = .ok state' ∧ state'.Holds totalVes := by
  set buckets := (state.groups.flatMap fun g => [g.baseMinor, g.vatMinor]) ++ [state.serviceMinor]
    with hbuckets
  have hsum : buckets.sum = total := by
    rw [← h.total, hbuckets, List.sum_append, List.sum_singleton, outstandingOf]
    congr 1
    induction state.groups with
    | nil => rfl
    | cons g groups ih => simp [ih, add_assoc]
  have hlen : buckets.length = 2 * state.groups.length + 1 := by
    simp [hbuckets, mul_comm]
  by_cases hzero : buckets.sum = 0
  · refine ⟨state, by simp only [toVes, ← hbuckets, hzero, if_true]; rfl, h.nonneg, h.distinct, ?_⟩
    rw [h.total, ← hsum, hzero, htotal (hsum.symm.trans hzero)]
  · have hne : buckets.filter (0 < ·) ≠ [] := by
      intro hnil
      refine hzero (List.sum_eq_zero fun x hx => ?_)
      have hle : ¬0 < x := by simpa using List.filter_eq_nil_iff.mp hnil x hx
      have hx0 : 0 ≤ x := by
        rcases List.mem_append.mp hx with hx | hx
        · obtain ⟨g, hg, hx⟩ := List.mem_flatMap.mp hx
          have := (h.nonneg.groups g hg).base
          have := (h.nonneg.groups g hg).vat
          simp only [List.mem_cons, List.not_mem_nil, or_false] at hx
          omega
        · rw [List.mem_singleton.mp hx]
          exact h.nonneg.service
      omega
    obtain ⟨allocated, hallocate, hexact⟩ :=
      allocate_exact h0 hne fun x hx => by simpa using (List.mem_filter.mp hx).2
    obtain ⟨hplen, hpnonneg, hpsum⟩ := spread_exact hexact
    have hpart : ∀ i, 0 ≤ (spread buckets allocated).getD i 0 := by
      intro i
      rw [List.getD_eq_getElem?_getD]
      cases hget : (spread buckets allocated)[i]? with
      | none => exact le_rfl
      | some x => exact hpnonneg x (List.mem_of_getElem? hget)
    refine ⟨_, by simp only [toVes, ← hbuckets, if_neg hzero, hallocate, Except.ok_bind]; rfl,
      ⟨fun g hg => ?_, hpart _⟩, ?_, ?_⟩
    · obtain ⟨⟨g₀, i⟩, -, rfl⟩ := List.mem_map.mp hg
      exact ⟨hpart _, hpart _⟩
    · have hrates := h.distinct
      unfold FiscalState.Distinct at hrates ⊢
      rw [List.map_map]
      rw [show ((·.vatBps) ∘ fun x : FiscalGroup × Nat => ({ x.1 with
          baseMinor := (spread buckets allocated).getD (x.2 * 2) 0
          vatMinor := (spread buckets allocated).getD (x.2 * 2 + 1) 0 } : FiscalGroup)) =
        FiscalGroup.vatBps ∘ Prod.fst from rfl, ← List.map_map, List.zipIdx_map_fst]
      exact hrates
    · rw [outstandingOf, List.map_map, ← hpsum, ← sum_pairs (hplen.trans hlen), hlen]
      exact congrArg (· + _) (sum_zipIdx fun i =>
        (spread buckets allocated).getD (i * 2) 0 + (spread buckets allocated).getD (i * 2 + 1) 0)

end Spread

section Initial

variable {s : Db} {b : Bill} {Z : Uuid → Prop}

/-- The bags of a bill with the figures of its lines add up to what is due. -/
theorem initialState_ok (hs : s.Derived Z) (hq : s.Quoted) (hb : b ∈ s.bills)
    (h : b.Itemised (s.lines b.id)) :
    ∃ state, initialState s b = .ok state ∧ state.Holds b.totalDueVes := by
  have hnonneg := hs.nonneg b.id h
  have hservice : 0 ≤ b.serviceChargeMinor := by
    obtain ⟨hbps, hservice⟩ := applyBps_eq_ok h.service
    rw [hservice, h.subtotal]
    exact roundHalfAway_nonneg (by decide) (mul_nonneg (TaxLine.subtotal_nonneg hnonneg) hbps)
  obtain ⟨state, hstate, hholds⟩ := stateFromLines_ok hnonneg h.vatOf hservice
  have htotal : TaxLine.subtotal ((s.itemsOf b.id).map BillItem.taxLine) +
      TaxLine.vat ((s.itemsOf b.id).map BillItem.taxLine) + b.serviceChargeMinor = b.totalDue := by
    rw [h.total, h.subtotal, h.vat]
    rfl
  rw [htotal] at hholds
  have hves := applyRate_eq_ok h.totalVes
  unfold initialState
  rw [hstate, Except.ok_bind]
  split
  · rename_i hcurrency
    rw [hq.identity b hb hcurrency, roundHalfAway_mul_self (by decide)] at hves
    exact ⟨state, rfl, hves ▸ hholds⟩
  · refine toVes_ok hholds (fun hzero => ?_) ?_
    · rw [hves, hzero, zero_mul, roundHalfAway_zero (by decide)]
    · have := hs.checked b hb
      grind [Bill.violated]

/-- A bill without lines has no bags. -/
theorem initialState_nil (hq : s.Quoted) (hb : b ∈ s.bills) (h : s.lines b.id = 0) :
    initialState s b = .ok ⟨[], 0⟩ := by
  have hitems : s.itemsOf b.id = [] := by
    simpa [Db.lines] using h
  unfold initialState
  rw [hitems, hq.unserved b hb h]
  split <;> rfl

end Initial

/-! ## Drafts -/

/-- An invoice of some bags: their rates, nothing that is negative, and the amount. -/
structure FiscalInvoice.Whole (invoice : FiscalInvoice) (state : FiscalState) (amount : Int) : Prop where
  rates : invoice.groups.map (·.vatBps) = state.groups.map (·.vatBps)
  base : ∀ g ∈ invoice.groups, 0 ≤ g.baseMinor
  vat : ∀ g ∈ invoice.groups, 0 ≤ g.vatMinor
  service : 0 ≤ invoice.serviceMinor
  parts : (invoice.groups.map fun g => g.baseMinor + g.vatMinor).sum + invoice.serviceMinor = amount
  total : invoice.totalMinor = amount

/-- The invoice of a payment is whole, whatever the weights and even of bags that are overdrawn. -/
theorem allocatePayment_whole {state remaining : FiscalState} {amount : Int}
    {composition : Option (List Int)} {invoice : FiscalInvoice} (h0 : 0 < amount)
    (h : allocatePayment state amount composition = .ok (invoice, remaining)) :
    invoice.Whole state amount := by
  obtain ⟨_, parts, -, hfits, hsum, -, hdeclares, hservice, htotal⟩ := allocatePayment_declares h0 h
  obtain ⟨hlen, hget⟩ := List.forall₂_iff_get.mp hdeclares
  -- The groups declare the parts of their bags, and the service the last part.
  obtain ⟨first, last, rfl⟩ : ∃ first last, parts = first ++ [last] := by
    rcases List.eq_nil_or_concat parts with rfl | ⟨first, last, rfl⟩
    · exact absurd hfits.length_eq (by simp [emptied, FiscalState.bags])
    · exact ⟨first, last, List.concat_eq_append⟩
  have hfirst : state.groups.length = first.length := by
    have := hfits.length_eq
    simp only [emptied, FiscalState.bags, List.length_append, List.length_map, List.length_singleton]
      at this
    omega
  have hzip : state.groups.zip (first ++ [last]) = state.groups.zip first := by
    calc state.groups.zip (first ++ [last]) = (state.groups ++ []).zip (first ++ [last]) := by
          rw [List.append_nil]
      _ = state.groups.zip first := by
          rw [List.zip_append hfirst, List.zip_nil_left, List.append_nil]
  have hmap : ∀ {β : Type} {f : FiscalGroup × Int → β} {g : FiscalGroup → β},
      (∀ x y, Declares x y → f x = g y) → (state.groups.zip first).map f = invoice.groups.map g := by
    intro β f g hfg
    rw [hzip] at hdeclares
    rw [← List.forall₂_eq_eq_eq, List.forall₂_map_left_iff, List.forall₂_map_right_iff]
    exact hdeclares.imp fun x y => hfg x y
  have hparts : invoice.groups.map (fun g => g.baseMinor + g.vatMinor) = first := by
    rw [← hmap (f := Prod.snd) fun _ _ hd => hd.part.symm, List.map_snd_zip hfirst.ge]
  refine ⟨?_, fun g hg => ?_, fun g hg => ?_, hservice ▸ hfits.nonneg _, ?_, htotal⟩
  · rw [← hmap (f := fun x => x.1.vatBps) fun _ _ hd => hd.rate.symm,
      show (fun x : FiscalGroup × Int => x.1.vatBps) = FiscalGroup.vatBps ∘ Prod.fst from rfl,
      ← List.map_map, List.map_fst_zip hfirst.le]
  · obtain ⟨i, hi, rfl⟩ := List.getElem_of_mem hg
    exact (hget i (hlen ▸ hi) hi).base
  · obtain ⟨i, hi, rfl⟩ := List.getElem_of_mem hg
    exact (hget i (hlen ▸ hi) hi).vat
  · rw [hparts, hservice, ← hsum, List.sum_append, hfirst]
    simp

/-- A draft of a payment is whole. -/
theorem buildDraft_whole {state remaining : FiscalState} {paidMinor : Int} {lineBasis : LineBasis}
    {lines : List SourceLine} {tableName : Option String} {draft : InvoiceDraft} (h0 : 0 < paidMinor)
    (h : buildDraft state paidMinor lineBasis lines tableName = .ok (draft, remaining)) :
    draft.Whole := by
  obtain ⟨-, -, invoice, hallocate, hof⟩ := buildDraft_ok h
  have hwhole := allocatePayment_whole h0 hallocate
  have htax : ∀ t ∈ draft.taxes, 0 ≤ t.vatBps ∧ 0 ≤ t.baseMinor ∧ 0 ≤ t.vatMinor := by
    intro t ht
    rw [hof.taxes] at ht
    obtain ⟨g, hg, rfl⟩ := List.mem_map.mp ht
    have hg := (List.mem_filter.mp hg).1
    exact ⟨Int.natCast_nonneg _, hwhole.base g hg, hwhole.vat g hg⟩
  have hrows : (draft.taxes.map fun t => t.baseMinor + t.vatMinor).sum =
      (invoice.groups.map fun g => g.baseMinor + g.vatMinor).sum := by
    rw [hof.taxes, draftTaxes, List.map_map]
    refine sum_filter_of_zero fun g hg hnone => ?_
    have := hwhole.base g hg
    have := hwhole.vat g hg
    simp only [Function.comp_apply]
    omega
  refine ⟨fun t ht => (htax t ht).1, fun t ht => (htax t ht).2.1, fun t ht => (htax t ht).2.2,
    hof.service ▸ hwhole.service, ?_⟩
  rw [hof.total, hwhole.total, hrows, hof.service]
  exact hwhole.parts.symm

end Splite
