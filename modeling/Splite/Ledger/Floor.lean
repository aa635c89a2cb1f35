import Splite.Ledger.Menu
import Splite.Ledger.Steady

/-!
# Itemised bills over whole runs

The floor of a restaurant: bills are opened and ordered on while they are paid, the menu changes and
rates move.

* `Db.Derived`: the figures of every bill are those of its lines, unless it was opened with a fixed
  total and has none.
* `Floor.Sound.step`: every step keeps that.
* `itemised_totals`: along every run the figures of a bill that was opened with a total of zero are
  those of its lines, and no change of the menu or of a rate touches a bill.
* `paid_bill_closes`: no bill that is paid in full stays open, as long as no line is removed or lowered
  to exactly what was paid.
-/

namespace Splite

structure Floor where
  ledger : World
  restaurants : Table Restaurant
  rateFor : Currency → Option FxRate
  openings : List Opening

namespace Floor

def db (w : Floor) : Db := w.ledger.db

/-- A transaction whose failure is answered with. -/
def transact {α : Type} (w : Floor) (x : Tx Err Db α) : Floor × List Err :=
  let r := w.ledger.transact x
  ({ w with ledger := r.1 }, r.2)

def setRestaurants (w : Floor) : Except Err (Table Restaurant) → Floor × List Err
  | .ok restaurants => ({ w with restaurants }, [])
  | .error err => (w, [err])

/-- The opening that a request has read. -/
def opening? (w : Floor) (callId : Uuid) : Option Opening :=
  w.openings.find? fun o => o.callId = callId

end Floor

inductive FloorOp where
  | ledger (op : LedgerOp)
  /-- A request reads the rates that it will open a bill with. -/
  | quoteBill (callId restaurantId : Uuid) (totalDueMinorUnits : Int)
  /-- It opens the bill. -/
  | postBill (callId billId : Uuid)
  /-- An order is placed, on the bill that its request opens or on one that there is. -/
  | placeOrder (callId : Option Uuid) (restaurantId billId : Uuid) (items : List (Uuid × OrderLine))
  | createProduct (p : Product)
  | updateProduct (restaurantId id : Uuid) (patch : ProductPatch)
  | deleteProduct (restaurantId id : Uuid) (permanent : Bool)
  | setMenuCurrency (restaurantId : Uuid) (currency : Currency)
  | setCharges (restaurantId : Uuid) (vatBps serviceChargeBps : Option Int)
  /-- A rate is published. -/
  | setRate (currency : Currency) (rate : Option FxRate)

/-- One step, with the error that its operation throws. -/
def FloorOp.step (w : Floor) : FloorOp → Floor × List Err
  | .ledger op => ({ w with ledger := (op.step w.ledger).1 }, (op.step w.ledger).2)
  | .quoteBill callId restaurantId total =>
    match Splite.quoteBill w.restaurants w.rateFor callId restaurantId total with
    | .ok o => ({ w with openings := w.openings ++ [o] }, [])
    | .error err => (w, [err])
  | .postBill callId billId =>
    match w.opening? callId with
    | some o => w.transact (Splite.postBill billId o)
    | none => (w, [])
  | .placeOrder callId restaurantId billId items =>
    w.transact (Splite.placeOrder restaurantId billId (callId.bind w.opening?) items)
  | .createProduct p => w.transact (Splite.createProduct p)
  | .updateProduct restaurantId id patch => w.transact (Splite.updateProduct restaurantId id patch)
  | .deleteProduct restaurantId id permanent =>
    w.transact (Splite.deleteProduct restaurantId id permanent)
  | .setMenuCurrency restaurantId currency =>
    w.setRestaurants (Splite.setMenuCurrency w.db.products w.restaurants restaurantId currency)
  | .setCharges restaurantId vatBps serviceChargeBps =>
    w.setRestaurants (Splite.setCharges w.restaurants restaurantId vatBps serviceChargeBps)
  | .setRate currency rate =>
    ({ w with rateFor := fun c => if c = currency then rate else w.rateFor c }, [])

/-- The floor as a machine that answers with the errors it throws. -/
def floor : Machine Floor FloorOp Err := ⟨FloorOp.step⟩

/-- An edit of the lines of a bill. -/
def FloorOp.isEdit : FloorOp → Bool
  | .ledger op => op.isEdit
  | .placeOrder .. => true
  | _ => false

/-- A change of the menu, of the rates of a restaurant, or of an exchange rate. -/
def FloorOp.isMenu : FloorOp → Bool
  | .createProduct .. | .updateProduct .. | .deleteProduct .. | .setMenuCurrency .. | .setCharges ..
  | .setRate .. => true
  | _ => false

/-- If the step opens the bill, it opens it with a total of zero. -/
def OpensAtZero (billId : Uuid) (w : Floor) : FloorOp → Prop
  | .postBill callId k | .placeOrder (some callId) _ k _ =>
    k = billId → ∀ o ∈ w.opening? callId, o.totalDueMinorUnits = 0
  | _ => True

instance (billId : Uuid) (w : Floor) (op : FloorOp) : Decidable (OpensAtZero billId w op) := by
  unfold OpensAtZero
  split <;> infer_instance

/-! ## The figures of every bill -/

variable {w : Floor} {s s' : Db} {Z : Uuid → Prop}

/-- Every bill has the figures of its lines, but for bills without lines that were opened with a
fixed total; those in `Z` were not. -/
structure Db.Derived (Z : Uuid → Prop) (s : Db) : Prop where
  checked : ∀ b ∈ s.bills, b.violated = none
  owned : ∀ i ∈ s.items, ∃ b ∈ s.bills, b.id = i.billId
  valid : ∀ i ∈ s.items, i.violated = none
  figures : ∀ b ∈ s.bills,
    b.Itemised (s.lines b.id) ∨ (s.lines b.id = 0 ∧ 0 < b.totalDue ∧ ¬Z b.id)

theorem Bill.Moves.id {b b' : Bill} (h : b.Moves b') : b'.id = b.id := by
  rw [h.same]

theorem Bill.Moves.itemised {b b' : Bill} {lines : Multiset TaxLine} (h : b.Moves b')
    (hb : b.Itemised lines) : b'.Itemised lines := by
  rw [h.same]
  exact ⟨hb.subtotal, hb.vat, hb.vatOf, hb.service, hb.total, hb.rate, hb.totalVes⟩

theorem lines_congr (h : s'.items = s.items) (k : Uuid) : s'.lines k = s.lines k := by
  unfold Db.lines Db.itemsOf
  rw [h]

/-- Where the bills keep their ids, every line keeps its bill. -/
theorem Db.Derived.owner (h : s.Derived Z) (hids : s'.bills.rows.map Bill.id = s.bills.rows.map Bill.id)
    {i : BillItem} (hi : i ∈ s.items) : ∃ b ∈ s'.bills, b.id = i.billId := by
  obtain ⟨b, hb, hid⟩ := h.owned i hi
  have hmem : b.id ∈ s'.bills.rows.map Bill.id := hids ▸ List.mem_map_of_mem hb
  obtain ⟨b', hb', hid'⟩ := List.mem_map.mp hmem
  exact ⟨b', hb', hid'.trans hid⟩

/-- Payments and the end of a bill leave its figures. -/
theorem Db.Derived.of_steady (h : s.Derived Z) (hs : Steady s s') : s'.Derived Z := by
  refine ⟨fun b' hb' => ?_, fun i hi => ?_, fun i hi => h.valid i (hs.items ▸ hi), fun b' hb' => ?_⟩
  · obtain ⟨b, hb, hmoves⟩ := hs.bills b' hb'
    exact hmoves.checked (h.checked b hb)
  · exact h.owner hs.ids (hs.items ▸ hi)
  · obtain ⟨b, hb, hmoves⟩ := hs.bills b' hb'
    rw [hmoves.id, lines_congr hs.items]
    rcases h.figures b hb with hitemised | ⟨hnone, hpos, hz⟩
    · exact .inl (hmoves.itemised hitemised)
    · refine .inr ⟨hnone, ?_, hz⟩
      rw [hmoves.same]
      exact hpos

theorem Edited.id {bill totals : Bill} (h : Edited bill totals s s') : totals.id = bill.id := by
  rw [← h.same]
  rfl

/-- The bills after an edit: the one that was edited, with its new figures, and the others. -/
theorem Edited.mem_bills {bill totals : Bill} (h : Edited bill totals s s') {b : Bill} :
    b ∈ s'.bills ↔ b = totals ∨ (b ∈ s.bills ∧ b.id ≠ bill.id) := by
  rw [h.bills, Table.mem_update_of_find (Bill.withTotals totals) (fun _ => rfl) h.found, h.same]
  rfl

theorem Edited.lines_of_ne {bill totals : Bill} (h : Edited bill totals s s') {k : Uuid}
    (hk : k ≠ bill.id) : s'.lines k = s.lines k := by
  have hitems : s'.itemsOf k = s.itemsOf k := h.relined.others k hk
  simp only [Db.lines, hitems]

/-- An edit writes the figures of the lines that it leaves. -/
theorem Db.Derived.of_edited (h : s.Derived Z) {bill totals : Bill} (he : Edited bill totals s s') :
    s'.Derived Z := by
  have hids : s'.bills.rows.map Bill.id = s.bills.rows.map Bill.id := by
    rw [he.bills]
    exact Table.keys_updateWhere
  refine ⟨fun b hb => ?_, fun i hi => ?_, he.relined.valid h.valid, fun b hb => ?_⟩
  · rcases he.mem_bills.mp hb with rfl | ⟨hb, -⟩
    · exact he.checked
    · exact h.checked b hb
  · rcases he.relined.owned i hi with hi | hi
    · exact h.owner hids hi
    · exact ⟨totals, he.mem_bills.mpr (.inl rfl), he.id.trans hi.symm⟩
  · rcases he.mem_bills.mp hb with rfl | ⟨hb, hne⟩
    · rw [he.id]
      exact .inl he.itemised
    · rw [he.lines_of_ne hne]
      exact h.figures b hb

/-- A new bill has no lines yet. -/
theorem Db.Derived.of_insertBill (h : s.Derived Z) {billId : Uuid} {o : Opening} {u : Unit}
    (ho : o.Valid) (hz : Z billId → o.totalDueMinorUnits = 0)
    (hrun : (insertBill billId o).run s = .ok u s') : s'.Derived Z := by
  obtain ⟨hv, hservice, hrate, bills, hins, rfl⟩ := insertBill_ok hrun
  have hmem : ∀ b, b ∈ bills ↔ b ∈ s.bills ∨ b = o.bill billId := fun b => Table.mem_insert? hins
  have hfresh := (Table.insert?_eq_some.mp hins).1
  refine ⟨fun b hb => ?_, fun i hi => ?_, h.valid, fun b hb => ?_⟩
  · rcases (hmem b).mp hb with hb | rfl
    · exact h.checked b hb
    · exact hv
  · obtain ⟨b, hb, hid⟩ := h.owned i hi
    exact ⟨b, (hmem b).mpr (.inl hb), hid⟩
  · rcases (hmem b).mp hb with hb | rfl
    · exact h.figures b hb
    · have hnone : s.lines billId = 0 := by
        rw [Db.lines, Multiset.coe_eq_zero, List.map_eq_nil_iff]
        refine List.filter_eq_nil_iff.mpr fun i hi => ?_
        obtain ⟨b, hb, hid⟩ := h.owned i hi
        have hne : b.id ≠ billId := hfresh b hb
        simpa [← hid] using hne
      show (o.bill billId).Itemised (s.lines billId) ∨ _
      rw [hnone]
      by_cases hzero : o.totalDueMinorUnits = 0
      · exact .inl (Opening.itemised ho hzero hservice hrate)
      · have hpos : 0 ≤ (o.bill billId).subtotalMinor := (Bill.nonneg_of_checked hv).1
        exact .inr ⟨hnone, lt_of_le_of_ne hpos (Ne.symm hzero), fun hzb => hzero (hz hzb)⟩

/-- A change of the menu leaves bills and lines. -/
theorem Db.Derived.of_menuOnly (h : s.Derived Z) (hm : MenuOnly s s') : s'.Derived Z := by
  have hbills := hm.bills
  have hsnap : ∀ i ∈ s'.items, ∃ i₀ ∈ s.items, i₀.snapshot = i.snapshot := fun i hi => by
    have : i.snapshot ∈ s.items.rows.map BillItem.snapshot := hm.items ▸ List.mem_map_of_mem hi
    obtain ⟨i₀, hi₀, he⟩ := List.mem_map.mp this
    exact ⟨i₀, hi₀, he⟩
  refine ⟨fun b hb => h.checked b (hbills ▸ hb), fun i hi => ?_, fun i hi => ?_, fun b hb => ?_⟩
  · obtain ⟨i₀, hi₀, he⟩ := hsnap i hi
    have hbill : i₀.snapshot.billId = i.snapshot.billId := by rw [he]
    obtain ⟨b, hb, hid⟩ := h.owned i₀ hi₀
    exact ⟨b, hbills ▸ hb, hid.trans hbill⟩
  · obtain ⟨i₀, hi₀, he⟩ := hsnap i hi
    have hviolated : i₀.snapshot.violated = i.snapshot.violated := by rw [he]
    exact hviolated.symm.trans (h.valid i₀ hi₀)
  · rw [hm.lines]
    exact h.figures b (hbills ▸ hb)

/-! ## What a step does to the database -/

/-- The parts that the steps of the floor are made of. -/
inductive Change (w : Floor) (op : FloorOp) : Db → Db → Prop
  | steady {s s' : Db} (h : Steady s s') : Change w op s s'
  | menu {s s' : Db} (h : MenuOnly s s') : Change w op s s'
  | inserted {s s' : Db} {u : Unit} (callId billId : Uuid) (o : Opening)
      (hop : op = .postBill callId billId ∨
        ∃ restaurantId items, op = .placeOrder (some callId) restaurantId billId items)
      (hopening : w.opening? callId = some o)
      (h : (insertBill billId o).run s = .ok u s') : Change w op s s'
  | extended {s s' : Db} (bill totals : Bill) (h : Extended bill totals s s') : Change w op s s'
  | requantified {s' : Db} (restaurantId itemId : Uuid) (quantity : Int) (bill totals : Bill)
      (hop : op = .ledger (.updateQuantity restaurantId bill.id itemId quantity))
      (hbill : w.db.bill? restaurantId bill.id = some bill) (h : Edited bill totals w.db s')
      (hlines : s'.lines bill.id = w.db.linesWith bill.id itemId quantity) : Change w op w.db s'
  | removed {s' : Db} (restaurantId itemId : Uuid) (bill totals : Bill)
      (hop : op = .ledger (.removeItem restaurantId bill.id itemId))
      (hbill : w.db.bill? restaurantId bill.id = some bill) (h : Edited bill totals w.db s')
      (hlines : s'.lines bill.id = w.db.linesWithout bill.id itemId) : Change w op w.db s'

abbrev Changes (w : Floor) (op : FloorOp) : Db → Db → Prop := Relation.ReflTransGen (Change w op)

theorem Floor.transact_changes (w : Floor) {op : FloorOp} {α : Type} {x : Tx Err Db α}
    (hatomic : Tx.Atomic x) (hx : ∀ a s', x.run w.db = .ok a s' → Changes w op w.db s') :
    Changes w op w.db (w.transact x).1.db := by
  unfold Floor.transact World.transact
  cases hrun : x.run w.ledger.db with
  | ok a db => exact hx a db hrun
  | error err db =>
    obtain rfl := hatomic _ _ _ hrun
    exact .refl

theorem placeOrder_changes {op : FloorOp} {restaurantId billId : Uuid} {callId : Option Uuid}
    {items : List (Uuid × OrderLine)} {r : List BillItem × Bill}
    (hop : op = .placeOrder callId restaurantId billId items)
    (h : (placeOrder restaurantId billId (callId.bind w.opening?) items).run s = .ok r s') :
    Changes w op s s' := by
  unfold placeOrder at h
  obtain ⟨_, s₁, hopen, hrest⟩ := Tx.bind_ok.mp (Tx.withTransaction_ok.mp h)
  have hfirst : Changes w op s s₁ := by
    unfold openFirst at hopen
    split at hopen
    · rename_i o ho
      obtain ⟨callId, rfl, hopening⟩ := Option.bind_eq_some_iff.mp ho
      exact .single (.inserted callId billId o (.inr ⟨restaurantId, items, hop⟩) hopening hopen)
    · obtain ⟨-, rfl⟩ := Tx.pure_ok.mp hopen
      exact .refl
  obtain ⟨bill, s₂, hlock, hadd⟩ := Tx.bind_ok.mp hrest
  obtain ⟨hfind, -, hstatus, rfl⟩ := lockOpenBill_found hlock
  obtain ⟨totals, hext⟩ := addItemsInTransaction_edited hfind hstatus hadd
  exact hfirst.tail (.extended bill totals hext)

/-- Every step is made of such parts. -/
theorem FloorOp.step_changes (w : Floor) (op : FloorOp) : Changes w op w.db (op.step w).1.db := by
  cases op with
  | ledger op =>
    cases hedit : op.isEdit with
    | false => exact .single (.steady (ledger_steady.step w.ledger op hedit))
    | true =>
      cases op with
      | addItem itemId restaurantId billId productId quantity =>
        refine w.transact_changes (atomic_tx _) fun r s' h => ?_
        obtain ⟨bill, totals, -, hext⟩ := addItem_edited h
        exact .single (.extended bill totals hext)
      | updateQuantity restaurantId billId itemId quantity =>
        refine w.transact_changes (atomic_tx _) fun r s' h => ?_
        obtain ⟨bill, totals, hbill, rfl, he, hlines⟩ := updateQuantity_edited h
        exact .single (.requantified restaurantId itemId quantity bill totals rfl hbill he hlines)
      | removeItem restaurantId billId itemId =>
        refine w.transact_changes (atomic_tx _) fun r s' h => ?_
        obtain ⟨bill, totals, hbill, rfl, he, hlines⟩ := removeItem_edited h
        exact .single (.removed restaurantId itemId bill totals rfl hbill he hlines)
      | _ => simp [LedgerOp.isEdit] at hedit
  | quoteBill callId restaurantId total =>
    simp only [FloorOp.step]
    split <;> exact .refl
  | postBill callId billId =>
    simp only [FloorOp.step]
    split
    · rename_i o hopening
      refine w.transact_changes (atomic_tx _) fun r s' h => ?_
      exact .single (.inserted callId billId o (.inl rfl) hopening (Tx.withTransaction_ok.mp h))
    · exact .refl
  | placeOrder callId restaurantId billId items =>
    exact w.transact_changes (atomic_tx _) fun r s' h => placeOrder_changes rfl h
  | createProduct p =>
    exact w.transact_changes (atomic_tx _) fun r s' h =>
      .single (.menu (createProduct_productsOnly _ _ _ h).menuOnly)
  | updateProduct restaurantId id patch =>
    exact w.transact_changes (atomic_tx _) fun r s' h =>
      .single (.menu (updateProduct_productsOnly _ _ _ h).menuOnly)
  | deleteProduct restaurantId id permanent =>
    refine w.transact_changes (atomic_tx _) fun r s' h => .single (.menu ?_)
    cases permanent with
    | true => exact deleteProduct_menuOnly _ _ _ h
    | false => exact (deactivateProduct_productsOnly _ _ _ h).menuOnly
  | setMenuCurrency restaurantId currency =>
    simp only [FloorOp.step, Floor.setRestaurants]
    split <;> exact .refl
  | setCharges restaurantId vatBps serviceChargeBps =>
    simp only [FloorOp.step, Floor.setRestaurants]
    split <;> exact .refl
  | setRate currency rate => exact .refl

/-- The database is derived, and what requests know comes from `quoteBill`. -/
structure Floor.Sound (Z : Uuid → Prop) (w : Floor) : Prop where
  derived : w.db.Derived Z
  openings : ∀ o ∈ w.openings, o.Valid

theorem Floor.Sound.change (h : w.Sound Z) {op : FloorOp} (hop : ∀ k, Z k → OpensAtZero k w op)
    (hc : Change w op s s') (hs : s.Derived Z) : s'.Derived Z := by
  cases hc with
  | steady h => exact hs.of_steady h
  | menu h => exact hs.of_menuOnly h
  | inserted callId billId o hkind hopening hrun =>
    refine hs.of_insertBill (h.openings o (List.mem_of_find?_eq_some hopening)) (fun hz => ?_) hrun
    have hzero := hop billId hz
    rcases hkind with rfl | ⟨restaurantId, items, rfl⟩
    · exact hzero rfl o hopening
    · exact hzero rfl o hopening
  | extended bill totals he => exact hs.of_edited he.toEdited
  | requantified restaurantId itemId quantity bill totals _ _ he _ => exact hs.of_edited he
  | removed restaurantId itemId bill totals _ _ he _ => exact hs.of_edited he

theorem FloorOp.step_openings (w : Floor) (op : FloorOp) : ∀ o ∈ (op.step w).1.openings,
    o ∈ w.openings ∨ ∃ callId restaurantId total,
      Splite.quoteBill w.restaurants w.rateFor callId restaurantId total = .ok o := by
  intro o ho
  cases op with
  | quoteBill callId restaurantId total =>
    simp only [FloorOp.step] at ho
    split at ho
    · rename_i o' hquote
      rcases List.mem_append.mp ho with ho | ho
      · exact .inl ho
      · rw [List.mem_singleton.mp ho]
        exact .inr ⟨callId, restaurantId, total, hquote⟩
    · exact .inl ho
  | postBill callId billId =>
    simp only [FloorOp.step] at ho
    split at ho <;> exact .inl ho
  | setMenuCurrency restaurantId currency =>
    simp only [FloorOp.step, Floor.setRestaurants] at ho
    split at ho <;> exact .inl ho
  | setCharges restaurantId vatBps serviceChargeBps =>
    simp only [FloorOp.step, Floor.setRestaurants] at ho
    split at ho <;> exact .inl ho
  | _ => exact .inl ho

theorem Floor.Sound.changes (h : w.Sound Z) {op : FloorOp} (hop : ∀ k, Z k → OpensAtZero k w op)
    (hc : Changes w op w.db s) : s.Derived Z := by
  induction hc with
  | refl => exact h.derived
  | tail _ hc ih => exact h.change hop hc ih

theorem Floor.Sound.step (h : w.Sound Z) (op : FloorOp) (hop : ∀ k, Z k → OpensAtZero k w op) :
    (op.step w).1.Sound Z :=
  ⟨h.changes hop (op.step_changes w), fun o ho => (op.step_openings w o ho).elim (h.openings o)
    fun ⟨_, _, _, hquote⟩ => (quoteBill_valid hquote).1⟩

/-! ## Bills that are paid in full -/

/-- An open bill that costs something is not paid in full. -/
def Db.Unstuck (s : Db) : Prop :=
  ∀ b ∈ s.bills, b.status = .open → 0 < b.totalDueVes → b.amountPaidVes < b.totalDueVes

/-- The step leaves no bill, on which something is paid, with lines that come to exactly what is
paid. -/
def Spares (w : Floor) : FloorOp → Prop
  | .ledger (.updateQuantity restaurantId billId itemId quantity) =>
    ∀ bill ∈ w.db.bill? restaurantId billId, 0 < bill.amountPaidVes →
      bill.priceOf (w.db.linesWith billId itemId quantity) ≠ bill.amountPaidVes
  | .ledger (.removeItem restaurantId billId itemId) =>
    ∀ bill ∈ w.db.bill? restaurantId billId, 0 < bill.amountPaidVes →
      bill.priceOf (w.db.linesWithout billId itemId) ≠ bill.amountPaidVes
  | _ => True

instance (w : Floor) (op : FloorOp) : Decidable (Spares w op) := by
  unfold Spares
  split <;> infer_instance

theorem Edited.amountPaid {bill totals : Bill} (h : Edited bill totals s s') :
    totals.amountPaidVes = bill.amountPaidVes := by
  rw [← h.same]
  rfl

theorem Edited.total {bill totals : Bill} (h : Edited bill totals s s') :
    totals.totalDueVes = bill.priceOf (s'.lines bill.id) := by
  rw [h.itemised.priceOf, ← h.same]
  rfl

theorem Db.Unstuck.of_edited (h : s.Unstuck) {bill totals : Bill} (he : Edited bill totals s s')
    (hpaid : 0 < totals.totalDueVes → bill.amountPaidVes < totals.totalDueVes) : s'.Unstuck := by
  intro b hb hopen hpos
  rcases he.mem_bills.mp hb with rfl | ⟨hb, -⟩
  · rw [he.amountPaid]
    exact hpaid hpos
  · exact h b hb hopen hpos

/-- What an edit leaves to be paid, when its lines do not come to what is paid. -/
theorem Edited.not_paid {bill totals : Bill} (h : Edited bill totals s s')
    (hne : 0 < bill.amountPaidVes → bill.priceOf (s'.lines bill.id) ≠ bill.amountPaidVes)
    (hpos : 0 < totals.totalDueVes) : bill.amountPaidVes < totals.totalDueVes := by
  have hle := Bill.paid_le_of_checked h.checked
  rw [h.amountPaid] at hle
  rw [← h.total] at hne
  rcases lt_or_ge 0 bill.amountPaidVes with hp | hp
  · have := hne hp
    omega
  · omega

theorem Db.Derived.nonneg (h : s.Derived Z) {b : Bill} (k : Uuid)
    (hb : b.Itemised (s.lines k)) : TaxLine.Nonneg (s.lines k) :=
  hb.nonneg_of_valid fun i hi => h.valid i (List.mem_filter.mp hi).1

/-- Lines that are added never bring the total down to what is paid. -/
theorem Extended.not_paid (hs : s.Derived Z) (h : s.Unstuck) {bill totals : Bill}
    (he : Extended bill totals s s') (hpos : 0 < totals.totalDueVes) :
    bill.amountPaidVes < totals.totalDueVes := by
  have hmem := Table.find?_mem he.found
  have hchecked := hs.checked bill hmem
  have hle := Bill.paid_le_of_checked hchecked
  have hnonneg := (Bill.nonneg_of_checked hchecked).2
  rcases hs.figures bill hmem with hold | ⟨hnone, htotal, -⟩
  · obtain ⟨more, hmore⟩ := he.more
    have hlines := (hs.of_edited he.toEdited).nonneg _ he.itemised
    rw [hmore] at hlines
    have hmono : bill.priceOf (s.lines bill.id) ≤ bill.priceOf (s.lines bill.id + more) :=
      TaxLine.price_mono hlines (applyBps_eq_ok hold.service).1 (parseRate_eq_ok hold.rate).1.le
    rw [← hmore, ← he.total, ← hold.priceOf] at hmono
    rcases lt_or_ge 0 bill.totalDueVes with hold' | hold'
    · have := h bill hmem he.opened hold'
      omega
    · omega
  · exact absurd ⟨hnone, htotal⟩ he.itemisable

theorem Change.unstuck {op : FloorOp} (hop : Spares w op) (hc : Change w op s s')
    (hs : s.Derived Z) (h : s.Unstuck) : s'.Unstuck := by
  cases hc with
  | steady hsteady =>
    intro b' hb' hopen hpos
    obtain ⟨b, hb, hmoves⟩ := hsteady.bills b' hb'
    obtain ⟨hopen₀, rfl | hlt⟩ := hmoves.opened hopen
    · exact h b' hb hopen hpos
    · exact hlt
  | menu hm => exact fun b hb => h b (hm.bills ▸ hb)
  | inserted callId billId o _ _ hrun =>
    obtain ⟨-, -, -, bills, hins, rfl⟩ := insertBill_ok hrun
    intro b hb hopen hpos
    rcases (Table.mem_insert? hins).mp hb with hb | rfl
    · exact h b hb hopen hpos
    · exact hpos
  | extended bill totals he => exact h.of_edited he.toEdited (he.not_paid hs h)
  | requantified restaurantId itemId quantity bill totals hkind hbill he hlines =>
    subst hkind
    exact h.of_edited he (he.not_paid fun hp => hlines ▸ hop bill hbill hp)
  | removed restaurantId itemId bill totals hkind hbill he hlines =>
    subst hkind
    exact h.of_edited he (he.not_paid fun hp => hlines ▸ hop bill hbill hp)

theorem Floor.Sound.changes_unstuck (h : w.Sound Z) {op : FloorOp}
    (hz : ∀ k, Z k → OpensAtZero k w op) (hop : Spares w op) (hu : w.db.Unstuck)
    (hc : Changes w op w.db s) : s.Unstuck := by
  induction hc with
  | refl => exact hu
  | tail hcs hc ih => exact hc.unstuck hop (h.changes hz hcs) ih

/-! ## The rates that are frozen on a bill -/

/-- What a bill keeps from its opening. -/
def Bill.frozen (b : Bill) : Currency × Int × Int × Option Int × Option String :=
  (b.currency, b.vatBps, b.serviceChargeBps, b.fxRateVesPerUnit, b.fxRateSource)

theorem Change.frozen {op : FloorOp} (hc : Change w op s s') :
    ∀ b ∈ s.bills, ∃ b' ∈ s'.bills, b'.id = b.id ∧ b'.frozen = b.frozen := by
  have hedit : ∀ {t t' : Db} {bill totals : Bill}, Edited bill totals t t' →
      ∀ b ∈ t.bills, ∃ b' ∈ t'.bills, b'.id = b.id ∧ b'.frozen = b.frozen := by
    intro t t' bill totals he b hb
    by_cases hid : b.id = bill.id
    · obtain rfl : b = bill := Table.eq_of_key hb (Table.find?_mem he.found) hid
      refine ⟨totals, he.mem_bills.mpr (.inl rfl), he.id, ?_⟩
      rw [← he.same]
      rfl
    · exact ⟨b, he.mem_bills.mpr (.inr ⟨hb, hid⟩), rfl, rfl⟩
  cases hc with
  | steady hs =>
    intro b hb
    have hmem : b.id ∈ s'.bills.rows.map Bill.id := hs.ids ▸ List.mem_map_of_mem hb
    obtain ⟨b', hb', hid⟩ := List.mem_map.mp hmem
    obtain ⟨b₀, hb₀, hmoves⟩ := hs.bills b' hb'
    obtain rfl : b₀ = b := Table.eq_of_key hb₀ hb (hmoves.id.symm.trans hid)
    refine ⟨b', hb', hid, ?_⟩
    rw [hmoves.same]
    rfl
  | menu hm => exact fun b hb => ⟨b, hm.bills ▸ hb, rfl, rfl⟩
  | inserted callId billId o _ _ hrun =>
    obtain ⟨-, -, -, bills, hins, rfl⟩ := insertBill_ok hrun
    exact fun b hb => ⟨b, (Table.mem_insert? hins).mpr (.inl hb), rfl, rfl⟩
  | extended bill totals he => exact hedit he.toEdited
  | requantified restaurantId itemId quantity bill totals _ _ he _ => exact hedit he
  | removed restaurantId itemId bill totals _ _ he _ => exact hedit he

theorem Changes.frozen {op : FloorOp} (hc : Changes w op s s') :
    ∀ b ∈ s.bills, ∃ b' ∈ s'.bills, b'.id = b.id ∧ b'.frozen = b.frozen := by
  induction hc with
  | refl => exact fun b hb => ⟨b, hb, rfl, rfl⟩
  | tail _ hc ih =>
    intro b hb
    obtain ⟨b', hb', hid, hfrozen⟩ := ih b hb
    obtain ⟨b'', hb'', hid', hfrozen'⟩ := hc.frozen b' hb'
    exact ⟨b'', hb'', hid'.trans hid, hfrozen'.trans hfrozen⟩

/-! ## Steps that leave every bill -/

instance : Std.Refl MenuOnly := ⟨fun s => (refl_of ProductsOnly s).menuOnly⟩

/-- A change of the menu or of a rate changes at most the menu. -/
theorem FloorOp.step_productsOnly (w : Floor) (op : FloorOp) (hop : op.isMenu)
    (hkept : ∀ restaurantId id, op ≠ .deleteProduct restaurantId id true) :
    ProductsOnly w.db (op.step w).1.db := by
  cases op with
  | createProduct p => exact transact_keeps (atomic_tx _) createProduct_productsOnly
  | updateProduct restaurantId id patch =>
    exact transact_keeps (atomic_tx _) updateProduct_productsOnly
  | deleteProduct restaurantId id permanent =>
    cases permanent with
    | true => exact absurd rfl (hkept restaurantId id)
    | false => exact transact_keeps (atomic_tx _) deactivateProduct_productsOnly
  | setMenuCurrency restaurantId currency =>
    simp only [FloorOp.step, Floor.setRestaurants]
    split <;> exact refl_of ProductsOnly _
  | setCharges restaurantId vatBps serviceChargeBps =>
    simp only [FloorOp.step, Floor.setRestaurants]
    split <;> exact refl_of ProductsOnly _
  | setRate currency rate => exact refl_of ProductsOnly _
  | _ => simp [FloorOp.isMenu] at hop

/-- A product that is deleted takes its links with it. -/
theorem FloorOp.step_menuOnly (w : Floor) (op : FloorOp) (hop : op.isMenu) :
    MenuOnly w.db (op.step w).1.db := by
  by_cases hkept : ∀ restaurantId id, op ≠ .deleteProduct restaurantId id true
  · exact (op.step_productsOnly w hop hkept).menuOnly
  · push Not at hkept
    obtain ⟨restaurantId, id, rfl⟩ := hkept
    exact transact_keeps (atomic_tx _) deleteProduct_menuOnly

theorem transact_refused {α : Type} {x : Tx Err Db α} {w : World} (hatomic : Tx.Atomic x)
    (h : (w.transact x).2 ≠ []) : (w.transact x).1.db = w.db := by
  unfold World.transact at h ⊢
  cases hrun : x.run w.db with
  | ok a db =>
    rw [hrun] at h
    exact absurd rfl h
  | error err db => exact hatomic _ _ _ hrun

/-- An edit that is refused leaves the database as it is. -/
theorem FloorOp.step_refused (w : Floor) (op : FloorOp) (hop : op.isEdit)
    (h : (op.step w).2 ≠ []) : (op.step w).1.db = w.db := by
  cases op with
  | ledger op =>
    cases op with
    | addItem itemId restaurantId billId productId quantity => exact transact_refused (atomic_tx _) h
    | updateQuantity restaurantId billId itemId quantity => exact transact_refused (atomic_tx _) h
    | removeItem restaurantId billId itemId => exact transact_refused (atomic_tx _) h
    | _ => simp [FloorOp.isEdit, LedgerOp.isEdit] at hop
  | placeOrder callId restaurantId billId items => exact transact_refused (atomic_tx _) h
  | _ => simp [FloorOp.isEdit] at hop

/-! ## Whole runs -/

/-- Nothing has been opened yet. -/
structure Floor.Fresh (w : Floor) : Prop where
  bills : w.db.bills = ∅
  items : w.db.items = ∅
  openings : w.openings = []

theorem Floor.Fresh.sound (h : w.Fresh) (Z : Uuid → Prop) : w.Sound Z := by
  have hbills : ∀ b, b ∉ w.db.bills := fun b hb => by
    rw [h.bills] at hb
    exact absurd hb List.not_mem_nil
  have hitems : ∀ i, i ∉ w.db.items := fun i hi => by
    rw [h.items] at hi
    exact absurd hi List.not_mem_nil
  refine ⟨⟨fun b hb => absurd hb (hbills b), fun i hi => absurd hi (hitems i),
    fun i hi => absurd hi (hitems i), fun b hb => absurd hb (hbills b)⟩, ?_⟩
  rw [h.openings]
  simp

/-- A bill that is opened with a total of zero has, after every run, the figures of its lines. -/
theorem Floor.Fresh.itemised (h : w.Fresh) {ops : List FloorOp} {k : Uuid}
    (hk : floor.Every (OpensAtZero k) w ops) {b : Bill} (hb : b ∈ (floor.run w ops).db.bills)
    (hid : b.id = k) : b.Itemised ((floor.run w ops).db.lines k) ∧ b.violated = none := by
  have hw : (floor.run w ops).Sound (· = k) :=
    Machine.invariant (fun w op hw hop => hw.step op fun _ hz => hz ▸ hop) (h.sound _) hk
  refine ⟨?_, hw.derived.checked b hb⟩
  rcases hw.derived.figures b hb with hitemised | ⟨-, -, hne⟩
  · rwa [hid] at hitemised
  · exact absurd hid hne

/-- The totals of a bill that is opened with a total of zero, after every run: they are those of its
lines at the rates frozen on it, and no more is paid than the total; they depend on those rates and on
the multiset of the lines alone; no step alters a frozen rate; a change of the menu or of a rate
leaves bills, splits and lines as they are, but for the link of a line to a product that is deleted;
and an edit that is refused leaves bills, lines and splits as they are. -/
theorem itemised_totals (w₀ : Floor) (h : w₀.Fresh) (ops : List FloorOp) (k : Uuid)
    (hk : floor.Every (OpensAtZero k) w₀ ops) :
    let w := floor.run w₀ ops
    (∀ b ∈ w.db.bills, b.id = k →
      b.Itemised (w.db.lines k) ∧ b.amountPaidVes ≤ b.totalDueVes) ∧
    (∀ ops' k', floor.Every (OpensAtZero k') w₀ ops' →
      let w' := floor.run w₀ ops'
      ∀ b ∈ w.db.bills, ∀ b' ∈ w'.db.bills, b.id = k → b'.id = k' →
        w.db.lines k = w'.db.lines k' → b.frozen = b'.frozen → b.figures = b'.figures) ∧
    (∀ op, ∀ b ∈ w.db.bills, ∃ b' ∈ (floor.step w op).1.db.bills,
      b'.id = b.id ∧ b'.frozen = b.frozen) ∧
    (∀ op, op.isMenu →
      (floor.step w op).1.db.bills = w.db.bills ∧ (floor.step w op).1.db.splits = w.db.splits ∧
      (floor.step w op).1.db.items.rows.map BillItem.snapshot =
        w.db.items.rows.map BillItem.snapshot ∧
      ((∀ restaurantId id, op ≠ .deleteProduct restaurantId id true) →
        (floor.step w op).1.db.items = w.db.items)) ∧
    ∀ op, op.isEdit → (floor.step w op).2 ≠ [] →
      (floor.step w op).1.db.items = w.db.items ∧ (floor.step w op).1.db.bills = w.db.bills ∧
      (floor.step w op).1.db.splits = w.db.splits := by
  intro w
  refine ⟨fun b hb hid => ?_, ?_, fun op => (op.step_changes w).frozen, fun op hop => ?_,
    fun op hop herr => ?_⟩
  · obtain ⟨hitemised, hchecked⟩ := h.itemised hk hb hid
    exact ⟨hitemised, Bill.paid_le_of_checked hchecked⟩
  · intro ops' k' hk' w' b hb b' hb' hid hid' hlines hfrozen
    have hitemised : b.Itemised (w.db.lines k) := (h.itemised hk hb hid).1
    have hitemised' : b'.Itemised (w'.db.lines k') := (h.itemised hk' hb' hid').1
    rw [hlines] at hitemised
    simp only [Bill.frozen, Prod.mk.injEq] at hfrozen
    exact hitemised.unique hitemised' hfrozen.2.2.1 hfrozen.2.2.2.1
  · have hm := op.step_menuOnly w hop
    obtain ⟨products, items, hdb⟩ := hm.frame
    refine ⟨hm.bills, ?_, hm.items, fun hkept => ?_⟩
    · rw [show (floor.step w op).1.db = _ from hdb]
    · obtain ⟨products, hdb⟩ := op.step_productsOnly w hop hkept
      rw [show (floor.step w op).1.db = _ from hdb]
  · have hdb : (floor.step w op).1.db = w.db := op.step_refused w hop herr
    rw [hdb]
    exact ⟨rfl, rfl, rfl⟩

/-! ## A lunch -/

/-- One restaurant with a menu in dollars, of which one dish has a VAT rate of its own and one is
exempt. -/
def lunch : Floor where
  ledger := .idle { evening with
    bills := ∅
    products :=
      ⟨[⟨50, 1, "Pabellón", 1250, .usd, true, .taxable, none⟩,
        ⟨51, 1, "Papelón", 333, .usd, true, .taxable, some 800⟩,
        ⟨52, 1, "Agua", 150, .usd, true, .exempt, none⟩], by decide⟩ }
  restaurants := ⟨[⟨1, .usd, 1600, 1000⟩], by decide⟩
  rateFor := fun _ => some ⟨3650000000, "BCV"⟩
  openings := []

theorem lunch_fresh : lunch.Fresh := ⟨rfl, rfl, rfl⟩

/-- A bill is opened and ordered on while prices and rates change under it. -/
def lunchOps : List FloorOp :=
  [ .quoteBill 90 1 0,
    .postBill 90 10,
    .placeOrder none 1 10 [(60, ⟨50, 2⟩), (61, ⟨51, 3⟩)],
    .setCharges 1 (some 0) (some 500),
    .setRate .usd (some ⟨4000000000, "BCV"⟩),
    .updateProduct 1 50 { priceMinorUnits := some 1500 },
    .ledger (.addItem 62 1 10 52 1),
    .ledger (.updateQuantity 1 10 61 1),
    .ledger (.processSplitPayment 20 7
      { restaurantId := 1, billId := 10, amountPaidMinorUnits := some 30000 }),
    .ledger (.removeItem 1 10 60) ]

/-- The last edit is refused, for it would bring the total below what is paid. -/
theorem lunch_totals :
    let w := floor.run lunch lunchOps
    w.db.bills.rows.map (·.figures) = [(2983, 427, 298, 3708, 135342)] ∧
    (∀ b ∈ w.db.bills, b.id = 10 → b.Itemised (w.db.lines 10)) :=
  ⟨by decide +kernel, fun b hb hid =>
    ((itemised_totals lunch lunch_fresh lunchOps 10 (by decide +kernel)).1 b hb hid).1⟩

/-! ## Paid in full and open -/

/-- In a run in which no line is removed or lowered to exactly what was paid, a bill that is open and
costs something is never paid in full. -/
theorem paid_bill_closes (w₀ : Floor) (h : w₀.Fresh) (ops : List FloorOp)
    (hops : floor.Every Spares w₀ ops) :
    ∀ b ∈ (floor.run w₀ ops).db.bills, b.status = .open → 0 < b.totalDueVes →
      b.amountPaidVes < b.totalDueVes := by
  have hstart : w₀.Sound (fun _ => False) ∧ w₀.db.Unstuck := by
    refine ⟨h.sound _, fun b hb => ?_⟩
    rw [h.bills] at hb
    exact absurd hb List.not_mem_nil
  have hend := Machine.invariant (I := fun w : Floor => w.Sound (fun _ => False) ∧ w.db.Unstuck)
    (fun w op hw hop => ⟨hw.1.step op fun _ hz => hz.elim,
      hw.1.changes_unstuck (fun _ hz => hz.elim) hop hw.2 (op.step_changes w)⟩) hstart hops
  exact hend.2

/-- Two dishes are ordered and the price of the first is paid. -/
def shareOps : List FloorOp :=
  [ .quoteBill 90 1 0,
    .postBill 90 10,
    .placeOrder none 1 10 [(60, ⟨52, 2⟩), (61, ⟨52, 1⟩)],
    .ledger (.processSplitPayment 20 7
      { restaurantId := 1, billId := 10, amountPaidMinorUnits := some 12045 }) ]

/-- A line is raised, and then the rest is paid. -/
theorem raised_bill_closes :
    let w := floor.run lunch (shareOps ++ [.ledger (.updateQuantity 1 10 60 3),
      .ledger (.processSplitPayment 21 8
        { restaurantId := 1, billId := 10, amountPaidMinorUnits := some 12045 })])
    w.db.bills.rows.map (·.status) = [.closed] ∧
    ∀ b ∈ w.db.bills, b.status = .open → 0 < b.totalDueVes → b.amountPaidVes < b.totalDueVes :=
  ⟨by decide +kernel, paid_bill_closes lunch lunch_fresh _ (by decide +kernel)⟩

/-- The dish that is not paid yet is taken off: what is left is paid, and the bill stays open. -/
theorem removal_leaves_paid_bill_open :
    lunch.Fresh ∧ ¬∀ b ∈ (floor.run lunch (shareOps ++ [.ledger (.removeItem 1 10 61)])).db.bills,
      b.status = .open → 0 < b.totalDueVes → b.amountPaidVes < b.totalDueVes :=
  ⟨lunch_fresh, by decide +kernel⟩

end Splite
