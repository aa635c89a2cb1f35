import Splite.Ledger.Accounts
import Splite.Money

/-!
# Line items and the totals derived from them (`services/billItems.js`)

* `recalculateTotals_ok`: the new total is not below what is paid, and nothing but the bill's
  figures and the standing of its splits changes.
* `addItem_ok`, `updateQuantity_ok`, `removeItem_ok`: an edit changes items and then the totals.
* `Edits.effect`: an edit of the items reprices the account of the bill.
-/

namespace Splite

/-- `resolveLineTax(product, bill)`. -/
def resolveLineTax (product : Product) (bill : Bill) : TaxCategory × Int :=
  if product.taxCategory ≠ .taxable then (product.taxCategory, 0)
  else (product.taxCategory, product.vatBps.getD bill.vatBps)

/-- `lockOpenBill(client, { restaurantId, billId })`. -/
def lockOpenBill (restaurantId billId : Uuid) : Tx Err Db Bill := do
  let s ← get
  let bill ← Tx.orThrow (s.bill? restaurantId billId) (.api .billNotFound "Bill not found" [])
  Tx.require (bill.status = .open)
    (.api .billNotOpen ("A " ++ BillStatus.text bill.status ++ " bill cannot be changed")
      [("status", BillStatus.text bill.status)])
  return bill

/-- `SELECT … FROM bill_items WHERE bill_id = $1`. -/
def Db.itemsOf (s : Db) (billId : Uuid) : List BillItem :=
  s.items.rows.filter fun i => i.billId = billId

/-- `TAX_GROUPS_SQL`: the rates of a bill in order, each with the sum of its lines. -/
def taxGroupRows (items : List BillItem) : List (Int × Int) :=
  let rates := (items.map fun i => i.vatBps.getD 0).dedup.insertionSort (· ≤ ·)
  rates.map fun rate =>
    (rate, ((items.filter fun i => i.vatBps.getD 0 = rate).map (·.subtotalMinor)).sum)

structure TaxGroup where
  vatBps : Int
  baseMinor : Int
  vatMinor : Int
  deriving DecidableEq, Repr

/-- One row of `summariseTaxGroups`. -/
def summariseTaxGroup (row : Int × Int) : Except Err TaxGroup := do
  let vatMinor ← applyBps row.2 row.1 "IVA"
  return ⟨row.1, row.2, vatMinor⟩

/-- What `summariseTaxGroups` returns. -/
structure TaxSummary where
  groups : List TaxGroup
  subtotal : Int
  vat : Int

/-- `summariseTaxGroups(rows)`. -/
def summariseTaxGroups (rows : List (Int × Int)) : Except Err TaxSummary := do
  let groups ← rows.mapM summariseTaxGroup
  return ⟨groups, (groups.map (·.baseMinor)).sum, (groups.map (·.vatMinor)).sum⟩

/-- `markSplitsStale(client, billId)`. -/
def markSplitsStale (billId : Uuid) : Tx Err Db Unit :=
  modify fun s => { s with
    splits := s.splits.updateWhere (fun r => r.billId = billId ∧ r.status = .active)
      (fun r => { r with status := .stale }) fun _ => rfl }

/-- The columns of a bill that `recalculateTotals` writes, taken from `totals`. -/
def Bill.withTotals (totals b : Bill) : Bill :=
  { b with
    subtotalMinor := totals.subtotalMinor
    vatMinor := totals.vatMinor
    serviceChargeMinor := totals.serviceChargeMinor
    totalDue := totals.totalDue
    totalDueVes := totals.totalDueVes }

/-- `recalculateTotals(client, bill)`, of a bill that is locked. -/
def recalculateTotals (bill : Bill) : Tx Err Db Bill := do
  let s ← get
  let tax ← Tx.ofExcept (summariseTaxGroups (taxGroupRows (s.itemsOf bill.id)))
  let serviceCharge ← Tx.ofExcept (applyBps tax.subtotal bill.serviceChargeBps "Service charge")
  let total := tax.subtotal + tax.vat + serviceCharge
  let scaledRate ← Tx.ofExcept (parseRate (bill.fxRateVesPerUnit.getD RATE_SCALE))
  let totalDueVes ← Tx.ofExcept (applyRate total scaledRate "Bill total in VES")
  Tx.require (bill.amountPaidVes ≤ totalDueVes)
    (.api .totalBelowAmountPaid
      "That change would put the bill total below what has already been paid"
      [("amountPaidVes", toString bill.amountPaidVes), ("proposedTotalVes", toString totalDueVes)])
  let updated : Bill :=
    { bill with
      subtotalMinor := tax.subtotal
      vatMinor := tax.vat
      serviceChargeMinor := serviceCharge
      totalDue := total
      totalDueVes }
  updateBill bill.id (Bill.withTotals updated) fun _ => rfl
  if totalDueVes ≠ bill.totalDueVes then
    markSplitsStale bill.id
    return updated
  else
    return updated

/-- `assertItemisable(bill, itemCount)`. -/
def assertItemisable (bill : Bill) (itemCount : Nat) : Tx Err Db Unit :=
  Tx.require (¬(itemCount = 0 ∧ bill.totalDue > 0))
    (.api .billNotItemised
      "This bill was opened with a fixed total. Open it with a total of 0 to add line items."
      [("totalDue", toString bill.totalDue)])

/-- `INSERT INTO bill_items …`. -/
def insertItem (item : BillItem) : Tx Err Db Unit := do
  let s ← get
  Tx.forbid item.violated .checkViolation
  let items ← Tx.orThrow (s.items.insert? item) (.uniqueViolation "bill_items_pkey")
  Tx.require (∃ bill ∈ s.bill? item.restaurantId item.billId, bill.currency = item.currency)
    (.foreignKeyViolation "bill_items_bill_tenant_currency_fk")
  set { s with items }

def Currency.text : Currency → String
  | .ves => "VES"
  | .usd => "USD"
  | .eur => "EUR"

/-- The callback of `addItem({ restaurantId, billId, productId, quantity })`. -/
def addItem (itemId restaurantId billId productId : Uuid) (quantity : Int) :
    Tx Err Db (BillItem × Bill) := Tx.withTransaction do
  let bill ← lockOpenBill restaurantId billId
  let s ← get
  assertItemisable bill (s.itemsOf billId).length
  let product ← Tx.orThrow
    ((s.products.find? productId).filter (·.restaurantId = restaurantId))
    (.api .productNotFound "Product not found" [])
  Tx.require product.active
    (.api .productInactive "That product is no longer on the menu"
      [("productId", toString product.id)])
  Tx.require (product.currency = bill.currency)
    (.api .menuCurrencyMismatch
      ("This bill settles a " ++ bill.currency.text ++ " menu; that product is priced in " ++
        product.currency.text)
      [("billCurrency", bill.currency.text), ("productCurrency", product.currency.text)])
  let tax := resolveLineTax product bill
  let item : BillItem :=
    { id := itemId, restaurantId, billId, productId := some product.id,
      nameSnapshot := product.name, unitPriceMinor := product.priceMinorUnits,
      currency := product.currency, quantity, taxCategory := tax.1, vatBps := some tax.2 }
  insertItem item
  let updated ← recalculateTotals bill
  return (item, updated)

/-- A line of an order. -/
structure OrderLine where
  productId : Uuid
  quantity : Int
  deriving DecidableEq, Repr

/-- The body of the loop of `addItemsInTransaction`. -/
def addLine (restaurantId : Uuid) (bill : Bill) (itemId : Uuid) (line : OrderLine) :
    Tx Err Db BillItem := do
  let s ← get
  let product ← Tx.orThrow
    ((s.products.find? line.productId).filter (·.restaurantId = restaurantId))
    (.api .productNotFound "Product not found" [("productId", toString line.productId)])
  Tx.require product.active
    (.api .productInactive (product.name ++ " is no longer on the menu")
      [("productId", toString product.id)])
  Tx.require (product.currency = bill.currency)
    (.api .menuCurrencyMismatch
      ("This bill settles a " ++ bill.currency.text ++ " menu; " ++ product.name ++
        " is priced in " ++ product.currency.text)
      [("billCurrency", bill.currency.text), ("productCurrency", product.currency.text)])
  let tax := resolveLineTax product bill
  let item : BillItem :=
    { id := itemId, restaurantId, billId := bill.id, productId := some product.id,
      nameSnapshot := product.name, unitPriceMinor := product.priceMinorUnits,
      currency := product.currency, quantity := line.quantity, taxCategory := tax.1,
      vatBps := some tax.2 }
  insertItem item
  return item

/-- The loop of `addItemsInTransaction`; every line comes with the id of its row. -/
def addLines (restaurantId : Uuid) (bill : Bill) :
    List (Uuid × OrderLine) → Tx Err Db (List BillItem)
  | [] => return []
  | (itemId, line) :: items => do
    let item ← addLine restaurantId bill itemId line
    let added ← addLines restaurantId bill items
    return item :: added

/-- `addItemsInTransaction(client, { restaurantId, bill, items })`, of a bill that is locked. -/
def addItemsInTransaction (restaurantId : Uuid) (bill : Bill) (items : List (Uuid × OrderLine)) :
    Tx Err Db (List BillItem × Bill) := do
  let s ← get
  assertItemisable bill (s.itemsOf bill.id).length
  let added ← addLines restaurantId bill items
  let updated ← recalculateTotals bill
  return (added, updated)

/-- The line of a bill that an edit names. -/
def Db.item? (s : Db) (restaurantId billId itemId : Uuid) : Option BillItem :=
  (s.items.find? itemId).filter fun i => i.billId = billId ∧ i.restaurantId = restaurantId

/-- `updateQuantity({ restaurantId, billId, itemId, quantity })`. -/
def updateQuantity (restaurantId billId itemId : Uuid) (quantity : Int) :
    Tx Err Db (BillItem × Bill) := Tx.withTransaction do
  let bill ← lockOpenBill restaurantId billId
  let s ← get
  let item ← Tx.orThrow (s.item? restaurantId billId itemId)
    (.api .billItemNotFound "Line item not found on this bill" [])
  Tx.forbid ({ item with quantity }).violated .checkViolation
  set { s with items := s.items.update itemId (fun i => { i with quantity }) fun _ => rfl }
  let updated ← recalculateTotals bill
  return ({ item with quantity }, updated)

/-- `removeItem({ restaurantId, billId, itemId })`. -/
def removeItem (restaurantId billId itemId : Uuid) : Tx Err Db (Uuid × Bill) :=
  Tx.withTransaction do
    let bill ← lockOpenBill restaurantId billId
    let s ← get
    let item ← Tx.orThrow (s.item? restaurantId billId itemId)
      (.api .billItemNotFound "Line item not found on this bill" [])
    set { s with items := s.items.deleteWhere fun i => i.id = itemId }
    let updated ← recalculateTotals bill
    return (item.id, updated)

/-! ## An edit reprices the bill -/

section Specs

variable {s s' : Db} {restaurantId billId : Uuid}

theorem lockOpenBill_ok {bill : Bill} (h : (lockOpenBill restaurantId billId).run s = .ok bill s') :
    s.bill? restaurantId billId = some bill ∧ bill.status = .open ∧ s' = s := by
  unfold lockOpenBill at h
  simp only [Tx.bind_ok, Tx.run_get, Tx.orThrow_ok, Tx.require_ok, Tx.pure_ok] at h
  obtain ⟨_, _, ⟨rfl, rfl⟩, _, _, ⟨hbill, rfl⟩, _, _, ⟨hopen, rfl⟩, rfl, rfl⟩ := h
  exact ⟨hbill, hopen, rfl⟩

/-- The splits of a bill whose total has changed. -/
def Db.staled (s : Db) (billId : Uuid) : Table BillSplit :=
  s.splits.updateWhere (fun r => r.billId = billId ∧ r.status = .active)
    (fun r => { r with status := .stale }) fun _ => rfl

theorem recalculateTotals_ok {bill updated : Bill}
    (h : (recalculateTotals bill).run s = .ok updated s') :
    bill.amountPaidVes ≤ updated.totalDueVes ∧ ∃ splits,
      splits = (if updated.totalDueVes ≠ bill.totalDueVes then s.staled bill.id else s.splits) ∧
      s' = { s with
        bills := s.bills.update bill.id (Bill.withTotals updated) fun _ => rfl
        splits } := by
  unfold recalculateTotals at h
  simp only [Tx.bind_ok, Tx.run_get, Tx.ofExcept_ok, Tx.require_ok] at h
  obtain ⟨_, _, ⟨rfl, rfl⟩, tax, _, ⟨-, rfl⟩, service, _, ⟨-, rfl⟩, rate, _, ⟨-, rfl⟩, total, _,
    ⟨-, rfl⟩, _, _, ⟨hle, rfl⟩, _, s₁, hup, h⟩ := h
  obtain ⟨rfl, -⟩ := updateBill_ok hup
  split at h
  · rename_i hne
    simp only [Tx.bind_ok, markSplitsStale, Tx.run_modify, Tx.pure_ok] at h
    obtain ⟨_, _, ⟨rfl, rfl⟩, rfl, rfl⟩ := h
    exact ⟨hle, _, (if_pos hne).symm, rfl⟩
  · rename_i heq
    obtain ⟨rfl, rfl⟩ := Tx.pure_ok.mp h
    exact ⟨hle, _, (if_neg heq).symm, rfl⟩

theorem recalculateTotals_effect {bill updated : Bill} (hbill : s.bills.find? billId = some bill)
    (hopen : bill.status = .open) (h : (recalculateTotals bill).run s = .ok updated s') :
    Effect none s s' := by
  obtain ⟨hle, splits, -, rfl⟩ := recalculateTotals_ok h
  obtain rfl : bill.id = billId := Table.find?_key hbill
  exact .of_payments_eq
    (.reprice (Bill.withTotals updated) (fun _ => rfl) hbill hopen hle rfl rfl rfl rfl rfl) rfl

/-- An edit: the items of a bill that is locked change, and `recalculateTotals` follows. -/
def Edits (restaurantId billId : Uuid) (s s' : Db) : Prop :=
  ∃ bill items updated, s.bill? restaurantId billId = some bill ∧ bill.status = .open ∧
    (recalculateTotals bill).run { s with items } = .ok updated s'

theorem addItem_ok {itemId productId : Uuid} {quantity : Int} {r : BillItem × Bill}
    (h : (addItem itemId restaurantId billId productId quantity).run s = .ok r s') :
    Edits restaurantId billId s s' := by
  unfold addItem at h
  simp only [Tx.withTransaction_ok, Tx.bind_ok, Tx.run_get, Tx.orThrow_ok, Tx.require_ok,
    Tx.pure_ok, assertItemisable] at h
  obtain ⟨bill, _, hlock, _, _, ⟨rfl, rfl⟩, _, _, ⟨-, rfl⟩, product, _, ⟨-, rfl⟩, _, _, ⟨-, rfl⟩,
    _, _, ⟨-, rfl⟩, _, s₁, hins, updated, s₂, hrec, ⟨-, rfl⟩⟩ := h
  obtain ⟨hbill, hopen, rfl⟩ := lockOpenBill_ok hlock
  unfold insertItem at hins
  simp only [Tx.bind_ok, Tx.run_get, Tx.forbid_ok, Tx.orThrow_ok, Tx.require_ok, Tx.run_set] at hins
  obtain ⟨_, _, ⟨rfl, rfl⟩, _, _, ⟨-, rfl⟩, items, _, ⟨-, rfl⟩, _, _, ⟨-, rfl⟩, ⟨-, rfl⟩⟩ := hins
  exact ⟨bill, items, updated, hbill, hopen, hrec⟩

theorem updateQuantity_ok {itemId : Uuid} {quantity : Int} {r : BillItem × Bill}
    (h : (updateQuantity restaurantId billId itemId quantity).run s = .ok r s') :
    Edits restaurantId billId s s' := by
  unfold updateQuantity at h
  simp only [Tx.withTransaction_ok, Tx.bind_ok, Tx.run_get, Tx.orThrow_ok, Tx.forbid_ok,
    Tx.run_set, Tx.pure_ok] at h
  obtain ⟨bill, _, hlock, _, _, ⟨rfl, rfl⟩, item, _, ⟨-, rfl⟩, _, _, ⟨-, rfl⟩, _, _, ⟨rfl, rfl⟩,
    updated, s₂, hrec, ⟨-, rfl⟩⟩ := h
  obtain ⟨hbill, hopen, rfl⟩ := lockOpenBill_ok hlock
  exact ⟨bill, _, updated, hbill, hopen, hrec⟩

theorem removeItem_ok {itemId : Uuid} {r : Uuid × Bill}
    (h : (removeItem restaurantId billId itemId).run s = .ok r s') :
    Edits restaurantId billId s s' := by
  unfold removeItem at h
  simp only [Tx.withTransaction_ok, Tx.bind_ok, Tx.run_get, Tx.orThrow_ok, Tx.run_set,
    Tx.pure_ok] at h
  obtain ⟨bill, _, hlock, _, _, ⟨rfl, rfl⟩, item, _, ⟨-, rfl⟩, _, _, ⟨rfl, rfl⟩, updated, s₂,
    hrec, ⟨-, rfl⟩⟩ := h
  obtain ⟨hbill, hopen, rfl⟩ := lockOpenBill_ok hlock
  exact ⟨bill, _, updated, hbill, hopen, hrec⟩

theorem Edits.effect (h : Edits restaurantId billId s s') : Effect none s s' := by
  obtain ⟨bill, items, updated, hbill, hopen, hrec⟩ := h
  have hitems : Effect none s { s with items } := .of_frame rfl rfl rfl
  exact hitems.trans (recalculateTotals_effect (bill?_eq_some.mp hbill).1 hopen hrec)

end Specs

end Splite
