import Splite.Ledger.Totals

/-!
# Edits of the lines of a bill

An edit changes the lines of one open bill and then writes the figures that they come to; lines and
figures of the other bills stay.

* `Relined`: only the lines of one bill change. `Appended`: they only grow.
* `addItem_edited`, `addItemsInTransaction_edited`, `updateQuantity_edited`, `removeItem_edited`: every
  edit is `Edited`, with the lines that it leaves.
-/

namespace Splite

variable {s s' s'' : Db} {restaurantId billId itemId : Uuid}

/-- Nothing but lines of one bill change. -/
structure Relined (billId : Uuid) (s s' : Db) : Prop where
  frame : ∃ items, s' = { s with items }
  others : ∀ k, k ≠ billId → s'.itemsOf k = s.itemsOf k
  owned : ∀ i ∈ s'.items, i ∈ s.items ∨ i.billId = billId
  valid : (∀ i ∈ s.items, i.violated = none) → ∀ i ∈ s'.items, i.violated = none

theorem Relined.refl (billId : Uuid) (s : Db) : Relined billId s s :=
  ⟨⟨s.items, rfl⟩, fun _ _ => rfl, fun _ h => .inl h, fun h => h⟩

theorem Relined.trans (h : Relined billId s s') (h' : Relined billId s' s'') :
    Relined billId s s'' := by
  obtain ⟨items, rfl⟩ := h.frame
  obtain ⟨items', rfl⟩ := h'.frame
  refine ⟨⟨items', rfl⟩, fun k hk => (h'.others k hk).trans (h.others k hk), fun i hi => ?_,
    fun hv => h'.valid (h.valid hv)⟩
  rcases h'.owned i hi with hi | hi
  · exact h.owned i hi
  · exact .inr hi

/-- Lines are added to one bill, and nothing else changes. -/
structure Appended (billId : Uuid) (s s' : Db) : Prop extends Relined billId s s' where
  more : ∃ more, s'.lines billId = s.lines billId + more

instance (billId : Uuid) : Std.Refl (Appended billId) := ⟨fun s => ⟨.refl billId s, 0, by simp⟩⟩

instance (billId : Uuid) : IsTrans Db (Appended billId) := ⟨fun s s' s'' h h' => by
  obtain ⟨more, hmore⟩ := h.more
  obtain ⟨more', hmore'⟩ := h'.more
  exact ⟨h.toRelined.trans h'.toRelined, more + more', by rw [hmore', hmore, add_assoc]⟩⟩

/-! ## The statements on `bill_items` -/

theorem insertItem_appended {item : BillItem} {u : Unit} (h : (insertItem item).run s = .ok u s') :
    Appended item.billId s s' := by
  unfold insertItem at h
  simp only [Tx.bind_ok, Tx.run_get, Tx.forbid_ok, Tx.orThrow_ok, Tx.require_ok, Tx.run_set] at h
  obtain ⟨_, _, ⟨rfl, rfl⟩, _, _, ⟨hv, rfl⟩, items, _, ⟨hins, rfl⟩, _, s, ⟨-, rfl⟩, ⟨-, rfl⟩⟩ := h
  have hitems : ∀ k, ({ s with items } : Db).itemsOf k =
      s.itemsOf k ++ [item].filter fun i => i.billId = k := fun k => by
    simp only [Db.itemsOf, (Table.insert?_eq_some.mp hins).2, List.filter_append]
  refine ⟨⟨⟨items, rfl⟩, fun k hk => ?_, fun i hi => ?_, fun hall i hi => ?_⟩, {item.taxLine}, ?_⟩
  · rw [hitems, List.filter_cons_of_neg (by simpa using Ne.symm hk), List.filter_nil, List.append_nil]
  · rcases (Table.mem_insert? hins).mp hi with hi | rfl
    · exact .inl hi
    · exact .inr rfl
  · rcases (Table.mem_insert? hins).mp hi with hi | rfl
    · exact hall i hi
    · exact hv
  · rw [Db.lines, hitems, List.filter_cons_of_pos (by simp), List.filter_nil, List.map_append]
    rfl

theorem item?_eq_some {item : BillItem} (h : s.item? restaurantId billId itemId = some item) :
    s.items.find? itemId = some item ∧ item.billId = billId := by
  obtain ⟨hfind, hcond⟩ := Option.filter_eq_some_iff.mp h
  exact ⟨hfind, (by simpa using hcond : _ ∧ _).1⟩

theorem relined_quantity {item : BillItem} {quantity : Int}
    (h : s.item? restaurantId billId itemId = some item)
    (hv : ({ item with quantity } : BillItem).violated = none) :
    Relined billId s { s with
      items := s.items.update itemId (fun i => { i with quantity }) fun _ => rfl } := by
  obtain ⟨hfind, hbill⟩ := item?_eq_some h
  have hrows : ∀ i, i ∈ s.items.update itemId (fun i : BillItem => { i with quantity }) (fun _ => rfl) →
      i = { item with quantity } ∨ i ∈ s.items := fun i hi =>
    ((Table.mem_update_of_find (fun i : BillItem => { i with quantity }) (fun _ => rfl) hfind).mp
      hi).imp_right And.left
  refine ⟨⟨_, rfl⟩, fun k hk => ?_, fun i hi => ?_, fun hall i hi => ?_⟩
  · unfold Db.itemsOf
    refine Table.filter_update (fun i : BillItem => { i with quantity }) (fun _ => rfl)
      fun i hi hid => ?_
    rw [Table.eq_of_key hi (Table.find?_mem hfind) (hid.trans (Table.find?_key hfind).symm), hbill]
    simp [hk.symm]
  · rcases hrows i hi with rfl | hi
    · exact .inr hbill
    · exact .inl hi
  · rcases hrows i hi with rfl | hi
    · exact hv
    · exact hall i hi

theorem relined_removed {item : BillItem} (h : s.item? restaurantId billId itemId = some item) :
    Relined billId s { s with items := s.items.deleteWhere fun i => i.id = itemId } := by
  obtain ⟨hfind, hbill⟩ := item?_eq_some h
  refine ⟨⟨_, rfl⟩, fun k hk => ?_, fun i hi => .inl (Table.mem_deleteWhere.mp hi).1,
    fun hall i hi => hall i (Table.mem_deleteWhere.mp hi).1⟩
  refine Table.filter_deleteWhere fun i hi hid => ?_
  have hi : i = item := Table.eq_of_key hi (Table.find?_mem hfind)
    ((by simpa using hid : i.id = itemId).trans (Table.find?_key hfind).symm)
  rw [hi, hbill]
  simp [hk.symm]

/-! ## Edits -/

/-- The lines of one open bill change, and then its figures are those of its lines. -/
structure Edited (bill totals : Bill) (s s' : Db) : Prop where
  found : s.bills.find? bill.id = some bill
  opened : bill.status = .open
  same : totals.withTotals bill = totals
  checked : totals.violated = none
  itemised : totals.Itemised (s'.lines bill.id)
  relined : Relined bill.id s { s with items := s'.items }
  bills : s'.bills = s.bills.update bill.id (Bill.withTotals totals) fun _ => rfl

/-- The lines of a locked bill change, and `recalculateTotals` follows. -/
theorem edited_of_relined {s₁ : Db} {bill updated : Bill}
    (hbill : s.bills.find? bill.id = some bill) (hopen : bill.status = .open)
    (hlines : Relined bill.id s s₁) (h : (recalculateTotals bill).run s₁ = .ok updated s') :
    Edited bill updated s s' ∧ s'.items = s₁.items := by
  obtain ⟨items, rfl⟩ := hlines.frame
  obtain ⟨hitemised, hsame, hchecked, splits, rfl⟩ := recalculateTotals_itemised h
  refine ⟨⟨hbill, hopen, hsame, ?_, hitemised, hlines, rfl⟩, rfl⟩
  have hv := hchecked bill hbill
  rwa [hsame] at hv

theorem lockOpenBill_found {bill : Bill}
    (h : (lockOpenBill restaurantId billId).run s = .ok bill s') :
    s.bills.find? bill.id = some bill ∧ bill.id = billId ∧ bill.status = .open ∧ s' = s := by
  obtain ⟨hbill, hopen, rfl⟩ := lockOpenBill_ok h
  obtain ⟨hfind, -⟩ := bill?_eq_some.mp hbill
  have hid : bill.id = billId := Table.find?_key hfind
  exact ⟨hid ▸ hfind, hid, hopen, rfl⟩

/-- What adding lines to a bill needs of it, and does to it. -/
structure Extended (bill totals : Bill) (s s' : Db) : Prop extends Edited bill totals s s' where
  itemisable : ¬(s.lines bill.id = 0 ∧ 0 < bill.totalDue)
  more : ∃ more, s'.lines bill.id = s.lines bill.id + more

theorem assertItemisable_ok {bill : Bill} {u : Unit}
    (h : (assertItemisable bill (s.itemsOf bill.id).length).run s = .ok u s') :
    ¬(s.lines bill.id = 0 ∧ 0 < bill.totalDue) ∧ s' = s := by
  obtain ⟨hcond, rfl⟩ := Tx.require_ok.mp h
  refine ⟨fun ⟨hnone, hpos⟩ => hcond ⟨?_, hpos⟩, rfl⟩
  have hcard := congrArg Multiset.card hnone
  simpa [Db.lines] using hcard

theorem addItem_edited {productId : Uuid} {quantity : Int} {r : BillItem × Bill}
    (h : (addItem itemId restaurantId billId productId quantity).run s = .ok r s') :
    ∃ bill totals, bill.id = billId ∧ Extended bill totals s s' := by
  unfold addItem at h
  obtain ⟨bill, s₁, hlock, hrest⟩ := Tx.bind_ok.mp (Tx.withTransaction_ok.mp h)
  obtain ⟨hfind, rfl, hopen, rfl⟩ := lockOpenBill_found hlock
  rw [Tx.bind_of_ok Tx.run_get] at hrest
  obtain ⟨_, s₂, hassert, hadd⟩ := Tx.bind_ok.mp hrest
  obtain ⟨hitemisable, rfl⟩ := assertItemisable_ok hassert
  simp only [Tx.bind_ok, Tx.orThrow_ok, Tx.require_ok, Tx.pure_ok] at hadd
  obtain ⟨product, _, ⟨-, rfl⟩, _, _, ⟨-, rfl⟩, _, _, ⟨-, rfl⟩, _, s₃, hins, updated, s₄, hrec, -,
    rfl⟩ := hadd
  have happ := insertItem_appended hins
  obtain ⟨hedit, hitems⟩ := edited_of_relined hfind hopen happ.toRelined hrec
  obtain ⟨more, hmore⟩ := happ.more
  refine ⟨bill, updated, rfl, hedit, hitemisable, more, ?_⟩
  rw [← hmore]
  simp only [Db.lines, Db.itemsOf, hitems]

theorem addLine_appended {bill : Bill} {line : OrderLine} :
    Tx.Keeps (Appended bill.id) (addLine restaurantId bill itemId line) := by
  refine Tx.Keeps.get_bind fun s item s' h => ?_
  simp only [Tx.bind_ok, Tx.orThrow_ok, Tx.require_ok, Tx.pure_ok] at h
  obtain ⟨product, _, ⟨-, rfl⟩, _, _, ⟨-, rfl⟩, _, _, ⟨-, rfl⟩, _, s₁, hins, -, rfl⟩ := h
  exact insertItem_appended hins

theorem addLines_appended {bill : Bill} (items : List (Uuid × OrderLine)) :
    Tx.Keeps (Appended bill.id) (addLines restaurantId bill items) := by
  induction items with
  | nil => exact Tx.Keeps.pure []
  | cons item items ih =>
    exact addLine_appended.bind fun _ => ih.bind fun _ => Tx.Keeps.pure _

theorem addItemsInTransaction_edited {bill : Bill} {items : List (Uuid × OrderLine)}
    {r : List BillItem × Bill} (hfind : s.bills.find? bill.id = some bill)
    (hopen : bill.status = .open)
    (h : (addItemsInTransaction restaurantId bill items).run s = .ok r s') :
    ∃ totals, Extended bill totals s s' := by
  unfold addItemsInTransaction at h
  rw [Tx.bind_of_ok Tx.run_get] at h
  obtain ⟨_, s₁, hassert, hrest⟩ := Tx.bind_ok.mp h
  obtain ⟨hitemisable, rfl⟩ := assertItemisable_ok hassert
  simp only [Tx.bind_ok, Tx.pure_ok] at hrest
  obtain ⟨added, s₂, hadd, updated, s₃, hrec, -, rfl⟩ := hrest
  have happ := addLines_appended items _ _ _ hadd
  obtain ⟨hedit, hitems⟩ := edited_of_relined hfind hopen happ.toRelined hrec
  obtain ⟨more, hmore⟩ := happ.more
  refine ⟨updated, hedit, hitemisable, more, ?_⟩
  rw [← hmore]
  simp only [Db.lines, Db.itemsOf, hitems]

theorem BillItem.id_quantity (quantity : Int) (i : BillItem) :
    ({ i with quantity } : BillItem).id = i.id := rfl

/-- The lines as `updateQuantity` leaves them. -/
def Db.linesWith (s : Db) (billId itemId : Uuid) (quantity : Int) : Multiset TaxLine :=
  ({ s with
      items := s.items.update itemId (fun i => { i with quantity })
        (BillItem.id_quantity quantity) } : Db).lines billId

/-- The lines as `removeItem` leaves them. -/
def Db.linesWithout (s : Db) (billId itemId : Uuid) : Multiset TaxLine :=
  ({ s with items := s.items.deleteWhere fun i => i.id = itemId } : Db).lines billId

theorem updateQuantity_edited {quantity : Int} {r : BillItem × Bill}
    (h : (updateQuantity restaurantId billId itemId quantity).run s = .ok r s') :
    ∃ bill totals, s.bill? restaurantId billId = some bill ∧ bill.id = billId ∧
      Edited bill totals s s' ∧ s'.lines billId = s.linesWith billId itemId quantity := by
  unfold updateQuantity at h
  obtain ⟨bill, s₁, hlock, hrest⟩ := Tx.bind_ok.mp (Tx.withTransaction_ok.mp h)
  have hbill := (lockOpenBill_ok hlock).1
  obtain ⟨hfind, rfl, hopen, rfl⟩ := lockOpenBill_found hlock
  rw [Tx.bind_of_ok Tx.run_get] at hrest
  simp only [Tx.bind_ok, Tx.orThrow_ok, Tx.forbid_ok, Tx.run_set, Tx.pure_ok] at hrest
  obtain ⟨item, _, ⟨hitem, rfl⟩, _, _, ⟨hv, rfl⟩, _, _, ⟨rfl, rfl⟩, updated, s₂, hrec, -, rfl⟩ := hrest
  obtain ⟨hedit, hitems⟩ := edited_of_relined hfind hopen (relined_quantity hitem hv) hrec
  refine ⟨bill, updated, hbill, rfl, hedit, ?_⟩
  simp only [Db.linesWith, Db.lines, Db.itemsOf, hitems]

theorem removeItem_edited {r : Uuid × Bill}
    (h : (removeItem restaurantId billId itemId).run s = .ok r s') :
    ∃ bill totals, s.bill? restaurantId billId = some bill ∧ bill.id = billId ∧
      Edited bill totals s s' ∧ s'.lines billId = s.linesWithout billId itemId := by
  unfold removeItem at h
  obtain ⟨bill, s₁, hlock, hrest⟩ := Tx.bind_ok.mp (Tx.withTransaction_ok.mp h)
  have hbill := (lockOpenBill_ok hlock).1
  obtain ⟨hfind, rfl, hopen, rfl⟩ := lockOpenBill_found hlock
  rw [Tx.bind_of_ok Tx.run_get] at hrest
  simp only [Tx.bind_ok, Tx.orThrow_ok, Tx.run_set, Tx.pure_ok] at hrest
  obtain ⟨item, _, ⟨hitem, rfl⟩, _, _, ⟨rfl, rfl⟩, updated, s₂, hrec, -, rfl⟩ := hrest
  obtain ⟨hedit, hitems⟩ := edited_of_relined hfind hopen (relined_removed hitem) hrec
  refine ⟨bill, updated, hbill, rfl, hedit, ?_⟩
  simp only [Db.linesWithout, Db.lines, Db.itemsOf, hitems]

end Splite
