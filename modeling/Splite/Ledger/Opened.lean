import Splite.Ledger.Floor

/-!
# How a bill was opened

A bill in bolívares is opened at the rate of identity, and one without lines charges no service. A bill
that was opened with a fixed total never has lines, and one that was not never becomes such a bill.

* `Floor.Quoted.step`: every step keeps the first two.
* `Db.Ordered.step`: every step keeps the third.
-/

namespace Splite

variable {w : Floor} {s s' : Db} {op : FloorOp} {k : Uuid} {Z : Uuid → Prop}

/-- Bills in bolívares are at the rate of identity; bills without lines charge no service. -/
structure Db.Quoted (s : Db) : Prop where
  identity : ∀ b ∈ s.bills, b.currency = .ves → b.scaledRate = RATE_SCALE
  unserved : ∀ b ∈ s.bills, s.lines b.id = 0 → b.serviceChargeMinor = 0

/-- What a request knows of a menu in bolívares is at the rate of identity. -/
structure Floor.Quoted (w : Floor) : Prop where
  db : w.db.Quoted
  openings : ∀ o ∈ w.openings, o.menuCurrency = .ves → o.fx.rate = RATE_SCALE

theorem quoteBill_identity {restaurants : Table Restaurant} {rateFor : Currency → Option FxRate}
    {callId restaurantId : Uuid} {total : Int} {o : Opening}
    (h : quoteBill restaurants rateFor callId restaurantId total = .ok o)
    (hves : o.menuCurrency = .ves) : o.fx.rate = RATE_SCALE := by
  obtain ⟨fx, hfx, hret⟩ := Except.bind_eq_ok.mp h
  cases hret
  unfold snapshotFx at hfx
  dsimp only at hves
  rw [if_pos hves] at hfx
  cases hfx
  rfl

/-- Nothing is charged for the service of no lines. -/
theorem Bill.Itemised.unserved {b : Bill} (h : b.Itemised 0) : b.serviceChargeMinor = 0 := by
  obtain ⟨-, hservice⟩ := applyBps_eq_ok h.service
  rw [hservice, h.subtotal]
  exact (congrArg (roundHalfAway · 10000) (zero_mul _)).trans (roundHalfAway_zero (by decide))

theorem Db.Quoted.of_edited (h : s.Quoted) {bill totals : Bill} (he : Edited bill totals s s') :
    s'.Quoted := by
  have hbill := Table.find?_mem he.found
  refine ⟨fun b hb hves => ?_, fun b hb hnone => ?_⟩
  · rcases he.mem_bills.mp hb with rfl | ⟨hb, -⟩
    · have hsame := he.same
      have hcurrency : bill.currency = .ves := by
        rw [← hves, ← hsame]
        rfl
      rw [← hsame]
      exact h.identity bill hbill hcurrency
    · exact h.identity b hb hves
  · rcases he.mem_bills.mp hb with rfl | ⟨hb, hne⟩
    · have hitemised := he.itemised
      rw [← he.id, hnone] at hitemised
      exact hitemised.unserved
    · rw [he.lines_of_ne hne] at hnone
      exact h.unserved b hb hnone

theorem Change.quoted (hopenings : ∀ o ∈ w.openings, o.menuCurrency = .ves → o.fx.rate = RATE_SCALE)
    (hc : Change w op s s') (h : s.Quoted) : s'.Quoted := by
  cases hc with
  | steady hs =>
    refine ⟨fun b' hb' hves => ?_, fun b' hb' hnone => ?_⟩
    · obtain ⟨b, hb, hmoves⟩ := hs.bills b' hb'
      rw [hmoves.same] at hves ⊢
      exact h.identity b hb hves
    · obtain ⟨b, hb, hmoves⟩ := hs.bills b' hb'
      rw [hmoves.id, lines_congr hs.items] at hnone
      rw [hmoves.same]
      exact h.unserved b hb hnone
  | menu hm =>
    refine ⟨fun b hb => h.identity b (hm.bills ▸ hb), fun b hb hnone => ?_⟩
    rw [hm.lines] at hnone
    exact h.unserved b (hm.bills ▸ hb) hnone
  | inserted callId billId o _ hopening hrun =>
    obtain ⟨-, -, -, bills, hins, rfl⟩ := insertBill_ok hrun
    refine ⟨fun b hb hves => ?_, fun b hb hnone => ?_⟩
    · rcases (Table.mem_insert? hins).mp hb with hb | rfl
      · exact h.identity b hb hves
      · exact hopenings o (List.mem_of_find?_eq_some hopening) hves
    · rcases (Table.mem_insert? hins).mp hb with hb | rfl
      · exact h.unserved b hb hnone
      · rfl
  | extended bill totals he => exact h.of_edited he.toEdited
  | requantified restaurantId itemId quantity bill totals _ _ he _ => exact h.of_edited he
  | removed restaurantId itemId bill totals _ _ he _ => exact h.of_edited he

theorem Floor.Quoted.step (h : w.Quoted) (op : FloorOp) : (op.step w).1.Quoted := by
  have hchanges : ∀ {s}, Changes w op w.db s → s.Quoted := by
    intro s hc
    induction hc with
    | refl => exact h.db
    | tail _ hc ih => exact hc.quoted h.openings ih
  refine ⟨hchanges (op.step_changes w), fun o ho => ?_⟩
  rcases op.step_openings w o ho with ho | ⟨_, _, _, hquote⟩
  · exact h.openings o ho
  · exact quoteBill_identity hquote

theorem Floor.Fresh.quoted (h : w.Fresh) : w.Quoted := by
  have hbills : ∀ b, b ∉ w.db.bills := fun b hb => by
    rw [h.bills] at hb
    exact absurd hb List.not_mem_nil
  refine ⟨⟨fun b hb => absurd hb (hbills b), fun b hb => absurd hb (hbills b)⟩, ?_⟩
  rw [h.openings]
  simp

/-! ## Bills that are ordered on -/

/-- A bill that was not opened with a fixed total, or has no line because nothing was ordered. -/
def Db.Ordered (s : Db) (k : Uuid) : Prop :=
  ∃ b ∈ s.bills, b.id = k ∧ ¬(s.lines k = 0 ∧ 0 < b.totalDue)

/-- A bill with the figures of no lines is due nothing. -/
theorem Bill.Itemised.nothing_due {b : Bill} (h : b.Itemised 0) : b.totalDue = 0 := by
  rw [h.total, h.unserved, h.subtotal, h.vat]
  rfl

theorem Db.Ordered.of_edited (h : s.Ordered k) {bill totals : Bill} (he : Edited bill totals s s') :
    s'.Ordered k := by
  obtain ⟨b, hb, rfl, hordered⟩ := h
  by_cases hid : b.id = bill.id
  · refine ⟨totals, he.mem_bills.mpr (.inl rfl), he.id.trans hid.symm, fun ⟨hnone, hpos⟩ => ?_⟩
    have hitemised := he.itemised
    rw [← hid, hnone] at hitemised
    rw [hitemised.nothing_due] at hpos
    exact lt_irrefl _ hpos
  · refine ⟨b, he.mem_bills.mpr (.inr ⟨hb, hid⟩), rfl, ?_⟩
    rwa [he.lines_of_ne hid]

theorem Change.ordered (hc : Change w op s s') (h : s.Ordered k) : s'.Ordered k := by
  cases hc with
  | steady hs =>
    obtain ⟨b, hb, rfl, hordered⟩ := h
    have hmem : b.id ∈ s'.bills.rows.map Bill.id := hs.ids ▸ List.mem_map_of_mem hb
    obtain ⟨b', hb', hid⟩ := List.mem_map.mp hmem
    obtain ⟨b₀, hb₀, hmoves⟩ := hs.bills b' hb'
    obtain rfl : b₀ = b := Table.eq_of_key hb₀ hb (hmoves.id.symm.trans hid)
    refine ⟨b', hb', hid, ?_⟩
    rw [lines_congr hs.items, hmoves.same]
    exact hordered
  | menu hm =>
    obtain ⟨b, hb, hid, hordered⟩ := h
    refine ⟨b, hm.bills ▸ hb, hid, ?_⟩
    rwa [hm.lines]
  | inserted callId billId o _ _ hrun =>
    obtain ⟨-, -, -, bills, hins, rfl⟩ := insertBill_ok hrun
    obtain ⟨b, hb, hid, hordered⟩ := h
    exact ⟨b, (Table.mem_insert? hins).mpr (.inl hb), hid, hordered⟩
  | extended bill totals he => exact h.of_edited he.toEdited
  | requantified restaurantId itemId quantity bill totals _ _ he _ => exact h.of_edited he
  | removed restaurantId itemId bill totals _ _ he _ => exact h.of_edited he

theorem Db.Ordered.step (h : w.db.Ordered k) (op : FloorOp) : (op.step w).1.db.Ordered k := by
  have hchanges : ∀ {s}, Changes w op w.db s → s.Ordered k := by
    intro s hc
    induction hc with
    | refl => exact h
    | tail _ hc ih => exact hc.ordered ih
  exact hchanges (op.step_changes w)

end Splite
