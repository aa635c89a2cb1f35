import Splite.Ledger.Menu
import Splite.Lib.Interleave

/-!
# Orders at one table (`services/guestOrders.js`, `routes/bills.js`)

Orders of guests and of waiters on one table, statement by statement; the two entry points run the same
ones. Each looks for an open bill before its transaction, waits for the row of the table, opens a bill
if it had found none, adds its lines and commits.

* `placeOrder_of_phases`: a transaction does what `placeOrder` does.
* `ordersRule`: the order that holds the table has all that is committed before its eyes.
* `served_iff`: when no order fails because another one has opened the bill.
-/

namespace Splite

/-- An order, with the ids of the rows that it may insert. -/
structure TableOrder where
  restaurantId : Uuid
  billId : Uuid
  items : List (Uuid × OrderLine)
  deriving DecidableEq, Repr

/-- What an order has found before its transaction. -/
inductive OrderPlan where
  | existing (billId : Uuid)
  | opens (opening : Opening)

def OrderPlan.opening : OrderPlan → Option Opening
  | .existing _ => none
  | .opens o => some o

/-- The bill that the order is for. -/
def TableOrder.target (order : TableOrder) : OrderPlan → Uuid
  | .existing billId => billId
  | .opens _ => order.billId

/-- The next statement of an order. -/
inductive OrderPhase where
  /-- `SELECT id FROM bills … status = 'OPEN'`. -/
  | begun
  /-- The rates of a bill that it would open. -/
  | quoting
  /-- `SELECT id FROM tables … FOR UPDATE`. -/
  | lockTable (plan : OrderPlan)
  /-- It holds the table; `INSERT INTO bills …`. -/
  | locked (plan : OrderPlan)
  /-- The bill is there; its lock, and the lines. -/
  | opened (plan : OrderPlan) (db : Db)
  /-- The lines are there; `COMMIT`. -/
  | added (plan : OrderPlan) (db : Db) (result : List BillItem × Bill)

structure OrderTx where
  order : TableOrder
  phase : OrderPhase

/-- It has locked the row of the table. -/
def OrderTx.holdsTable (t : OrderTx) : Bool :=
  match t.phase with
  | .locked _ | .opened _ _ | .added _ _ _ => true
  | _ => false

/-- What is committed, with the bills that have been opened for the table. -/
structure OneTable where
  db : Db
  bills : List Uuid
  restaurants : Table Restaurant
  rateFor : Currency → Option FxRate

/-- The bill is open. -/
def Db.isOpen (s : Db) (billId : Uuid) : Bool :=
  (s.bills.find? billId).any fun bill => bill.status = .open

/-- The open bills of the table. -/
def OneTable.openBills (b : OneTable) : List Uuid :=
  b.bills.filter b.db.isOpen

inductive OrderEvent where
  | accepted (order : TableOrder) (billId : Uuid) (added : List BillItem)
  /-- `23505` on `bills_one_open_per_table_idx`. -/
  | collided (order : TableOrder)
  | failed (order : TableOrder) (err : Err)
  deriving DecidableEq

/-- The next statement of an order, beside the others. -/
def OrderTx.next (b : OneTable) (others : List OrderTx) (t : OrderTx) :
    Advance OneTable OrderTx OrderEvent :=
  match t.phase with
  | .begun =>
    match b.openBills.head? with
    | some billId => .goes b { t with phase := .lockTable (.existing billId) } []
    | none => .goes b { t with phase := .quoting } []
  | .quoting =>
    match quoteBill b.restaurants b.rateFor 0 t.order.restaurantId 0 with
    | .ok opening => .goes b { t with phase := .lockTable (.opens opening) } []
    | .error err => .ends b [.failed t.order err]
  | .lockTable plan =>
    if others.any OrderTx.holdsTable then .waits else .goes b { t with phase := .locked plan } []
  | .locked plan =>
    if plan.opening.isSome ∧ b.openBills ≠ [] then .ends b [.collided t.order]
    else
      match (openFirst t.order.billId plan.opening).run b.db with
      | .ok _ db => .goes b { t with phase := .opened plan db } []
      | .error err _ => .ends b [.failed t.order err]
  | .opened plan db =>
    match (lockOpenBill t.order.restaurantId (t.order.target plan) >>= fun bill =>
        addItemsInTransaction t.order.restaurantId bill t.order.items).run db with
    | .ok result db => .goes b { t with phase := .added plan db result } []
    | .error err _ => .ends b [.failed t.order err]
  | .added plan db result =>
    .ends { b with db, bills := if plan.opening.isSome then b.bills ++ [t.order.billId] else b.bills }
      [.accepted t.order (t.order.target plan) result.1]

/-- The orders of a table. -/
def orders : Protocol OneTable OrderTx TableOrder OrderEvent where
  start order := ⟨order, .begun⟩
  next := OrderTx.next

/-! ## The lines of an order -/

/-- The row that a line of an order becomes. -/
def OrderLine.Becomes (billId : Uuid) (line : Uuid × OrderLine) (item : BillItem) : Prop :=
  item.id = line.1 ∧ item.billId = billId ∧ item.productId = some line.2.productId ∧
    item.quantity = line.2.quantity

section Lines

variable {s s' : Db} {restaurantId : Uuid}

theorem insertBill_rows {billId : Uuid} {o : Opening} (h : (insertBill billId o).run s = .ok () s') :
    s.bills.find? billId = none ∧ s'.items = s.items ∧
      ∀ id, s'.bills.find? id = if id = billId then some (o.bill billId) else s.bills.find? id := by
  obtain ⟨-, -, -, bills, hins, rfl⟩ := insertBill_ok h
  exact ⟨Table.find?_eq_none.mpr (Table.insert?_eq_some.mp hins).1, rfl, fun id =>
    Table.find?_insert? hins⟩

theorem addLine_rows {bill : Bill} {itemId : Uuid} {line : OrderLine} {item : BillItem}
    (h : (addLine restaurantId bill itemId line).run s = .ok item s') :
    OrderLine.Becomes bill.id (itemId, line) item ∧
      s'.items.rows = s.items.rows ++ [item] ∧ s'.bills = s.bills := by
  unfold addLine insertItem at h
  simp only [Tx.bind_ok, Tx.run_get, Tx.orThrow_ok, Tx.require_ok, Tx.forbid_ok, Tx.run_set,
    Tx.pure_ok] at h
  obtain ⟨_, _, ⟨rfl, rfl⟩, product, _, ⟨hproduct, rfl⟩, _, _, ⟨-, rfl⟩, _, _, ⟨-, rfl⟩, _, _,
    ⟨_, _, ⟨rfl, rfl⟩, _, _, ⟨-, rfl⟩, items, _, ⟨hins, rfl⟩, _, _, ⟨-, rfl⟩, ⟨-, rfl⟩⟩, rfl, rfl⟩ := h
  have hid := Table.find?_key (Option.filter_eq_some_iff.mp hproduct).1
  exact ⟨⟨rfl, rfl, congrArg some hid, rfl⟩, (Table.insert?_eq_some.mp hins).2, rfl⟩

theorem addLines_rows {bill : Bill} {items : List (Uuid × OrderLine)} {added : List BillItem}
    (h : (addLines restaurantId bill items).run s = .ok added s') :
    List.Forall₂ (OrderLine.Becomes bill.id) items added ∧
      s'.items.rows = s.items.rows ++ added ∧ s'.bills = s.bills := by
  induction items generalizing s added with
  | nil =>
    obtain ⟨rfl, rfl⟩ := Tx.pure_ok.mp h
    exact ⟨.nil, by simp, rfl⟩
  | cons line items ih =>
    unfold addLines at h
    simp only [Tx.bind_ok, Tx.pure_ok] at h
    obtain ⟨item, s₁, hline, rest, s₂, hrest, rfl, rfl⟩ := h
    obtain ⟨hbecomes, hrows, hbills⟩ := addLine_rows hline
    obtain ⟨hall, hrows', hbills'⟩ := ih hrest
    exact ⟨.cons hbecomes hall, by rw [hrows', hrows]; simp, hbills'.trans hbills⟩

/-- The part of the transaction that follows the lock of the table adds exactly the lines of the order to
its bill, which stays open. -/
theorem addOrder_rows {billId : Uuid} {items : List (Uuid × OrderLine)} {r : List BillItem × Bill}
    (h : (lockOpenBill restaurantId billId >>= fun bill =>
      addItemsInTransaction restaurantId bill items).run s = .ok r s') :
    List.Forall₂ (OrderLine.Becomes billId) items r.1 ∧ s'.items.rows = s.items.rows ++ r.1 ∧
      ∃ totals : Bill, ∀ id, s'.bills.find? id =
        if id = billId then (s.bills.find? id).map (Bill.withTotals totals) else s.bills.find? id := by
  obtain ⟨bill, s₁, hlock, hadd⟩ := Tx.bind_ok.mp h
  obtain ⟨hbill, hopen, rfl⟩ := lockOpenBill_ok hlock
  obtain rfl : bill.id = billId := Table.find?_key (bill?_eq_some.mp hbill).1
  unfold addItemsInTransaction assertItemisable at hadd
  simp only [Tx.bind_ok, Tx.run_get, Tx.require_ok, Tx.pure_ok] at hadd
  obtain ⟨_, _, ⟨rfl, rfl⟩, _, _, ⟨-, rfl⟩, added, s₂, hlines, updated, s₃, hrec, rfl, rfl⟩ := hadd
  obtain ⟨hall, hrows, hbills⟩ := addLines_rows hlines
  obtain ⟨-, splits, -, rfl⟩ := recalculateTotals_ok hrec
  refine ⟨hall, hrows, updated, ?_⟩
  rw [← hbills]
  exact Table.find?_update_with updated.withTotals fun _ => rfl

end Lines

/-! ## What an order knows -/

/-- The bills of the table are there, and one of them is open at most. -/
structure OneTable.Sound (b : OneTable) : Prop where
  known : ∀ id ∈ b.bills, (b.db.bills.find? id).isSome
  single : b.openBills.length ≤ 1

/-- The bill of the order is there: an open one of the table, or a new one when the table has none. -/
def OrderTx.HasBill (t : OrderTx) (b : OneTable) (db : Db) : OrderPlan → Prop
  | .existing billId => db = b.db ∧ billId ∈ b.openBills
  | .opens o => b.openBills = [] ∧ (insertBill t.order.billId o).run b.db = .ok () db

/-- What an order knows of what is committed by its phase. -/
def OrderTx.Sound (b : OneTable) (t : OrderTx) : Prop :=
  match t.phase with
  | .lockTable (.existing billId) | .locked (.existing billId) => billId ∈ b.openBills
  | .opened plan db => t.HasBill b db plan
  | .added plan db result => ∃ db₀, t.HasBill b db₀ plan ∧
    (lockOpenBill t.order.restaurantId (t.order.target plan) >>= fun bill =>
      addItemsInTransaction t.order.restaurantId bill t.order.items).run db₀ = .ok result db
  | _ => True

/-- No two orders have locked the table. -/
def OrderTx.Apart (t u : OrderTx) : Prop := t.holdsTable = true → u.holdsTable = false

/-- What is committed when an order is. -/
def OneTable.commit (b : OneTable) (t : OrderTx) (plan : OrderPlan) (db : Db) : OneTable :=
  { b with db, bills := if plan.opening.isSome then b.bills ++ [t.order.billId] else b.bills }

section Statements

variable {b b' : OneTable} {t t' u : OrderTx} {us : List OrderTx} {answer : List OrderEvent}
  {plan : OrderPlan} {db db₀ : Db} {result : List BillItem × Bill}

/-- What an order that holds the table has done is what `placeOrder` does. -/
theorem placeOrder_of_phases (hbill : t.HasBill b db₀ plan)
    (hadd : (lockOpenBill t.order.restaurantId (t.order.target plan) >>= fun bill =>
      addItemsInTransaction t.order.restaurantId bill t.order.items).run db₀ = .ok result db) :
    (placeOrder t.order.restaurantId (t.order.target plan) plan.opening t.order.items).run b.db =
      .ok result db := by
  refine Tx.withTransaction_ok.mpr (Tx.bind_ok.mpr ⟨(), db₀, ?_, hadd⟩)
  cases plan with
  | existing billId =>
    obtain ⟨rfl, -⟩ := hbill
    rfl
  | opens o => exact hbill.2

theorem openBills_single (h : b.Sound) {billId : Uuid} (hmem : billId ∈ b.openBills) :
    b.openBills = [billId] := by
  match hopen : b.openBills with
  | [] => simp [hopen] at hmem
  | [id] =>
    rw [hopen, List.mem_singleton] at hmem
    rw [hmem]
  | id :: id' :: rest =>
    have := h.single
    rw [hopen] at this
    simp at this

/-- When an order is committed, its bill is the open one of the table. -/
theorem openBills_commit (h : b.Sound) (hbill : t.HasBill b db₀ plan)
    (hadd : (lockOpenBill t.order.restaurantId (t.order.target plan) >>= fun bill =>
      addItemsInTransaction t.order.restaurantId bill t.order.items).run db₀ = .ok result db) :
    (b.commit t plan db).openBills = [t.order.target plan] ∧
      (b.commit t plan db).Sound ∧ db.items.rows = b.db.items.rows ++ result.1 := by
  obtain ⟨-, hrows, totals, hbills⟩ := addOrder_rows hadd
  have hisOpen : ∀ id, db.isOpen id = db₀.isOpen id := by
    intro id
    unfold Db.isOpen
    rw [hbills]
    split
    · rw [Option.any_map]
      rfl
    · rfl
  have hsome : ∀ id, (db.bills.find? id).isSome = (db₀.bills.find? id).isSome := by
    intro id
    rw [hbills]
    split
    · rw [Option.isSome_map]
    · rfl
  cases plan with
  | existing billId =>
    obtain ⟨rfl, hmem⟩ := hbill
    have hopen : (b.commit t (.existing billId) db).openBills = [billId] := by
      rw [← openBills_single h hmem]
      exact List.filter_congr fun id _ => hisOpen id
    refine ⟨hopen, ⟨fun id hid => ?_, by rw [hopen]; rfl⟩, hrows⟩
    change (db.bills.find? id).isSome
    rw [hsome]
    exact h.known id hid
  | opens o =>
    obtain ⟨hnone, hinsert⟩ := hbill
    obtain ⟨hnobill, hitems, hinserted⟩ := insertBill_rows hinsert
    have hfresh : ∀ id ∈ b.bills, id ≠ t.order.billId := by
      rintro id hid rfl
      have := h.known _ hid
      rw [hnobill] at this
      cases this
    have hold : ∀ id ∈ b.bills, db.isOpen id = b.db.isOpen id := by
      intro id hid
      rw [hisOpen]
      unfold Db.isOpen
      rw [hinserted, if_neg (hfresh id hid)]
    have hnew : db.isOpen t.order.billId = true := by
      rw [hisOpen]
      unfold Db.isOpen
      rw [hinserted, if_pos rfl]
      rfl
    have hopen : (b.commit t (.opens o) db).openBills = [t.order.billId] := by
      change (b.bills ++ [t.order.billId]).filter db.isOpen = _
      rw [List.filter_append, List.filter_congr hold]
      change b.openBills ++ _ = _
      rw [hnone, List.filter_cons_of_pos hnew]
      rfl
    refine ⟨hopen, ⟨fun id hid => ?_, by rw [hopen]; rfl⟩, by rw [hrows, hitems]⟩
    change (db.bills.find? id).isSome
    rw [hsome, hinserted]
    split
    · rfl
    · rename_i hne
      rcases List.mem_append.mp hid with hid | hid
      · exact h.known id hid
      · exact absurd (List.mem_singleton.mp hid) hne

/-- An order goes on with nothing committed, and locks the table only when nobody else has. -/
theorem order_goes (ht : t.Sound b) (h : t.next b us = .goes b' t' answer) :
    b' = b ∧ t'.Sound b ∧ answer = [] ∧
      (t'.holdsTable = true → t.holdsTable = true ∨ ∀ u ∈ us, u.holdsTable = false) := by
  obtain ⟨order, phase⟩ := t
  unfold OrderTx.next at h
  cases phase with
  | begun =>
    dsimp only at h
    split at h
    · rename_i billId hhead
      cases h
      exact ⟨rfl, List.mem_of_head? hhead, rfl, nofun⟩
    · cases h
      exact ⟨rfl, trivial, rfl, nofun⟩
  | quoting =>
    dsimp only at h
    split at h <;> cases h
    exact ⟨rfl, trivial, rfl, nofun⟩
  | lockTable plan =>
    dsimp only at h
    split at h
    · cases h
    · rename_i hfree
      cases h
      refine ⟨rfl, ?_, rfl, fun _ => .inr fun u hu => ?_⟩
      · cases plan with
        | existing billId => exact ht
        | opens o => trivial
      · exact Bool.eq_false_iff.mpr fun hholds => hfree (List.any_eq_true.mpr ⟨u, hu, hholds⟩)
  | locked plan =>
    dsimp only at h
    split at h
    · cases h
    · rename_i hvacant
      split at h
      · rename_i db hrun
        cases h
        refine ⟨rfl, ?_, rfl, fun _ => .inl rfl⟩
        cases plan with
        | existing billId =>
          obtain ⟨-, rfl⟩ := Tx.pure_ok.mp hrun
          exact ⟨rfl, ht⟩
        | opens o =>
          refine ⟨?_, hrun⟩
          by_contra hne
          exact hvacant ⟨rfl, hne⟩
      · cases h
  | opened plan db =>
    dsimp only at h
    split at h
    · rename_i result db' hrun
      cases h
      exact ⟨rfl, ⟨db, ht, hrun⟩, rfl, fun _ => .inl rfl⟩
    · cases h
  | added plan db result => cases h

/-- Only the last statement of an order commits anything or accepts it, and only the insert of a bill
collides. -/
theorem order_other (h : ∀ plan db result, t.phase ≠ .added plan db result) :
    (t.next b us).committed b = b ∧
      (∀ order billId added, .accepted order billId added ∉ (t.next b us).answer) ∧
      ∀ order, .collided order ∈ (t.next b us).answer ↔
        order = t.order ∧ b.openBills ≠ [] ∧ ∃ o, t.phase = .locked (.opens o) := by
  obtain ⟨order, phase⟩ := t
  unfold OrderTx.next
  cases phase with
  | begun =>
    dsimp only
    split <;> simp [Advance.committed, Advance.answer]
  | quoting =>
    dsimp only
    split <;> simp [Advance.committed, Advance.answer]
  | lockTable plan =>
    dsimp only
    split <;> simp [Advance.committed, Advance.answer]
  | locked plan =>
    dsimp only
    cases plan with
    | existing billId =>
      rw [if_neg (by simp [OrderPlan.opening])]
      split <;> simp [Advance.committed, Advance.answer]
    | opens o =>
      by_cases hopen : b.openBills = []
      · rw [if_neg (by simp [hopen])]
        split <;> simp [Advance.committed, Advance.answer, hopen]
      · rw [if_pos ⟨rfl, hopen⟩]
        simp [Advance.committed, Advance.answer, hopen]
  | opened plan db =>
    dsimp only
    split <;> simp [Advance.committed, Advance.answer]
  | added plan db result => exact absurd rfl (h plan db result)

/-- What the last statement of an order does. -/
theorem order_added {order : TableOrder} :
    OrderTx.next b us ⟨order, .added plan db result⟩ =
      .ends (b.commit ⟨order, .added plan db result⟩ plan db)
        [.accepted order (order.target plan) result.1] := rfl

/-- The open bill of the table is the one that an order adds to. -/
theorem openBills_stays (h : b.Sound) (hbill : t.HasBill b db₀ plan)
    (hadd : (lockOpenBill t.order.restaurantId (t.order.target plan) >>= fun bill =>
      addItemsInTransaction t.order.restaurantId bill t.order.items).run db₀ = .ok result db)
    {billId : Uuid} (hmem : billId ∈ b.openBills) : billId ∈ (b.commit t plan db).openBills := by
  rw [(openBills_commit h hbill hadd).1, List.mem_singleton]
  cases plan with
  | existing id =>
    rw [openBills_single h hbill.2, List.mem_singleton] at hmem
    exact hmem
  | opens o =>
    rw [hbill.1] at hmem
    cases hmem

/-- What an order that has not locked the table knows is still so when the open bills still are. -/
theorem OrderTx.Sound.later (ht : t.Sound b) (hfree : t.holdsTable = false)
    (hopen : ∀ billId ∈ b.openBills, billId ∈ b'.openBills) : t.Sound b' := by
  obtain ⟨order, phase⟩ := t
  cases phase with
  | lockTable plan =>
    cases plan with
    | existing billId => exact hopen _ ht
    | opens o => trivial
  | begun => trivial
  | quoting => trivial
  | locked plan => cases hfree
  | opened plan db => cases hfree
  | added plan db result => cases hfree

end Statements

/-! ## Every interleaving -/

/-- The order that holds the table sees all that is committed. -/
theorem ordersRule : orders.Rule (fun _ => True) (fun _ _ _ => True) OneTable.Sound OrderTx.Sound
    OrderTx.Apart where
  symm t u h hu := by
    cases ht : t.holdsTable with
    | false => rfl
    | true => exact absurd hu (by simp [h ht])
  start b order _ _ := ⟨trivial, fun _ _ => nofun⟩
  goes b us t hb ht hus _ b' t' answer hnext := by
    obtain ⟨rfl, ht', -, hholds⟩ := order_goes ht hnext
    refine ⟨hb, ht', fun u hu => ⟨(hus u hu).1, fun hheld => ?_⟩⟩
    rcases hholds hheld with hheld | hfree
    · exact (hus u hu).2 hheld
    · exact hfree u hu
  ends b us t hb ht hus _ b' answer hnext := by
    change t.next b us = _ at hnext
    by_cases hlast : ∃ plan db result, t.phase = .added plan db result
    · obtain ⟨order, phase⟩ := t
      obtain ⟨plan, db, result, rfl⟩ := hlast
      obtain ⟨db₀, hbill, hadd⟩ := ht
      cases hnext
      refine ⟨(openBills_commit hb hbill hadd).2.1, fun u hu => ?_⟩
      exact (hus u hu).1.later ((hus u hu).2 rfl) fun _ => openBills_stays hb hbill hadd
    · have hsame : (t.next b us).committed b = b :=
        (order_other fun plan db result heq => hlast ⟨plan, db, result, heq⟩).1
      rw [hnext] at hsame
      obtain rfl : b' = b := hsame
      exact ⟨hb, fun u hu => (hus u hu).1⟩

/-- A move leaves at most one open bill, accepts an order with exactly its own lines on that bill, and
refuses none because another one has opened it. -/
structure Serves (w : Sessions OneTable OrderTx) (m : Move TableOrder) : Prop where
  single : (orders.machine.step w m).1.committed.openBills.length ≤ 1
  accepted : ∀ order billId added, .accepted order billId added ∈ (orders.machine.step w m).2 →
    (orders.machine.step w m).1.committed.openBills = [billId] ∧
    List.Forall₂ (OrderLine.Becomes billId) order.items added ∧
    (orders.machine.step w m).1.committed.db.items.rows = w.committed.db.items.rows ++ added
  once : ∀ order billId added, .accepted order billId added ∈ (orders.machine.step w m).2 →
    ∃ id t, m = .go id ∧ w.running.find? id = some ⟨id, t⟩ ∧ t.order = order ∧
      (orders.machine.step w m).1.running.find? id = none
  rest : (∀ order billId added, .accepted order billId added ∉ (orders.machine.step w m).2) →
    (orders.machine.step w m).1.committed = w.committed
  uncollided : ∀ order, .collided order ∉ (orders.machine.step w m).2

/-- An order that found no open bill has the table locked, and the table still has none. -/
def Vacant (b : OneTable) (_ : List OrderTx) (t : OrderTx) : Prop :=
  match t.phase with
  | .locked (.opens _) => b.openBills = []
  | _ => True

instance (b : OneTable) (us : List OrderTx) (t : OrderTx) : Decidable (Vacant b us t) := by
  unfold Vacant
  split <;> infer_instance

section Moves

variable {w : Sessions OneTable OrderTx} {m : Move TableOrder}

/-- A move that commits nothing and accepts nothing serves, unless an order collides. -/
theorem serves_of_rest (hsound : w.committed.Sound)
    (hsame : (orders.machine.step w m).1.committed = w.committed)
    (hno : ∀ order billId added, .accepted order billId added ∉ (orders.machine.step w m).2) :
    Serves w m ↔ ∀ order, .collided order ∉ (orders.machine.step w m).2 := by
  refine ⟨Serves.uncollided, fun h => ⟨?_, ?_, ?_, fun _ => hsame, h⟩⟩
  · rw [hsame]
    exact hsound.single
  · exact fun order billId added hmem => absurd hmem (hno order billId added)
  · exact fun order billId added hmem => absurd hmem (hno order billId added)

/-- The commit of an order serves. -/
theorem serves_added (hw : Protocol.Holds OneTable.Sound OrderTx.Sound OrderTx.Apart w) {id : Nat}
    {order : TableOrder} {plan : OrderPlan} {db : Db} {result : List BillItem × Bill}
    (hfind : w.running.find? id = some ⟨id, order, .added plan db result⟩) : Serves w (.go id) := by
  obtain ⟨db₀, hbill, hadd⟩ := hw.session _ (Table.find?_mem hfind)
  have hopen := openBills_commit hw.committed hbill hadd
  have hcommitted := Protocol.committed_go (p := orders) hfind
  have hanswer := Protocol.answer_go (p := orders) hfind
  have hafter : (orders.machine.step w (.go id)).1.committed =
      w.committed.commit ⟨order, .added plan db result⟩ plan db := hcommitted
  have hanswered : (orders.machine.step w (.go id)).2 =
      [.accepted order (order.target plan) result.1] := hanswer
  have haccepted : ∀ {order' billId added},
      OrderEvent.accepted order' billId added ∈ (orders.machine.step w (.go id)).2 →
        order' = order ∧ billId = order.target plan ∧ added = result.1 := by
    intro order' billId added hmem
    rw [hanswered, List.mem_singleton] at hmem
    cases hmem
    exact ⟨rfl, rfl, rfl⟩
  refine ⟨?_, ?_, ?_, fun hno => ?_, fun order' hmem => ?_⟩
  · rw [hafter]
    exact hopen.2.1.single
  · intro order' billId added hmem
    obtain ⟨rfl, rfl, rfl⟩ := haccepted hmem
    rw [hafter]
    exact ⟨hopen.1, (addOrder_rows hadd).1, hopen.2.2⟩
  · intro order' billId added hmem
    obtain ⟨rfl, -, -⟩ := haccepted hmem
    exact ⟨id, _, rfl, hfind, rfl,
      Protocol.running_ends hfind (@order_added w.committed (w.others id) _ _ _ _)⟩
  · refine absurd ?_ (hno order (order.target plan) result.1)
    rw [hanswered]
    exact List.mem_singleton_self _
  · rw [hanswered] at hmem
    simp at hmem

/-- A move serves exactly when it does not let an order insert a bill where there is one. -/
theorem serves_iff (hw : Protocol.Holds OneTable.Sound OrderTx.Sound OrderTx.Apart w) :
    Serves w m ↔ Protocol.Allowed (fun _ => True) Vacant w m := by
  refine Protocol.iff_allowed (p := orders) (P := Serves w) (fun m hsame hanswer => ?_)
    (fun r hfind => ?_) m
  · rw [serves_of_rest hw.committed hsame (by simp [hanswer])]
    simp [hanswer]
  · obtain ⟨id, t⟩ := r
    by_cases hlast : ∃ plan db result, t.phase = .added plan db result
    · obtain ⟨order, phase⟩ := t
      obtain ⟨plan, db, result, rfl⟩ := hlast
      exact iff_of_true (serves_added hw hfind) trivial
    · have hother : (t.next w.committed (w.others id)).committed w.committed = w.committed ∧ _ ∧ _ :=
        order_other fun plan db result heq => hlast ⟨plan, db, result, heq⟩
      have hcommitted := Protocol.committed_go (p := orders) hfind
      have hanswer := Protocol.answer_go (p := orders) hfind
      change _ = (t.next _ _).committed _ at hcommitted
      change _ = (t.next _ _).answer at hanswer
      rw [serves_of_rest hw.committed (hcommitted.trans hother.1) (hanswer ▸ hother.2.1), hanswer]
      unfold Vacant
      constructor
      · intro h
        split
        · rename_i o hphase
          by_contra hopen
          exact h t.order ((hother.2.2 _).mpr ⟨rfl, hopen, o, hphase⟩)
        · trivial
      · intro h order hmem
        obtain ⟨-, hopen, o, hphase⟩ := (hother.2.2 order).mp hmem
        rw [hphase] at h
        exact hopen h

end Moves

/-- No order fails because another one has opened the bill exactly when no bill is opened for the table
between the look of an order that found none and its lock; all else that is promised of the orders of
a table always holds. -/
theorem served_iff (b : OneTable) (h : b.Sound) (moves : List (Move TableOrder)) :
    orders.machine.Every Serves (Sessions.start b) moves ↔
      orders.machine.Every (Protocol.Allowed (fun _ => True) Vacant) (Sessions.start b) moves :=
  Machine.every_iff (fun _ _ hw => serves_iff hw)
    (fun w m hw _ => ordersRule.step w m hw (Protocol.allowed_any m)) (Protocol.Holds.start h)

/-- A table without a bill, at a restaurant that sells one thing. -/
def freeTable : OneTable where
  db := {
    bills := ∅, items := ∅, payments := ∅, transitions := [], splits := ∅, shares := ∅
    adjustments := ∅, charges := ∅, attempts := [], events := ∅, movements := ∅, bankMatches := ∅
    products := ⟨[⟨5, 1, "Cachapa", 1000, .ves, true, .taxable, none⟩], by simp⟩ }
  bills := []
  restaurants := ⟨[⟨1, .ves, 1600, 0⟩], by simp⟩
  rateFor _ := none

def oneCachapa (billId itemId : Uuid) : TableOrder := ⟨1, billId, [(itemId, ⟨5, 1⟩)]⟩

/-- One order after the other. -/
theorem served_in_turn : orders.machine.Every Serves (Sessions.start freeTable)
    [.start 0 (oneCachapa 10 20), .go 0, .go 0, .go 0, .go 0, .go 0, .go 0,
      .start 1 (oneCachapa 11 21), .go 1, .go 1, .go 1, .go 1, .go 1] :=
  (served_iff freeTable ⟨nofun, Nat.zero_le 1⟩ _).mpr (by decide +kernel)

/-- The first two orders of a table both find it free, and the second one fails because the first has
opened the bill. -/
theorem second_order_collided : ¬orders.machine.Every Serves (Sessions.start freeTable)
    [.start 0 (oneCachapa 10 20), .start 1 (oneCachapa 11 21), .go 0, .go 1, .go 0, .go 1, .go 0, .go 0,
      .go 0, .go 0, .go 1, .go 1] := by
  intro h
  obtain ⟨-, -, -, -, -, -, -, -, -, -, -, hlast, -⟩ := h
  exact hlast.uncollided (oneCachapa 11 21) (by decide +kernel)

end Splite
