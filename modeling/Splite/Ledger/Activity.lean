import Splite.Ledger.Db
import Splite.Lib.Machine

/-!
# The activity feed (`activitySince` of `services/dashboard.js`)

A client polls what has happened since the `asOf` of its last answer. The query answers with the rows that
are committed then, and the clock is read after it; the rows carry the time at which their transaction
began.

* `FeedDb.write_events`: a transaction adds to the feed what it has not had before.
* `events_delivered_once`: when every event is delivered, and none twice.
-/

namespace Splite

/-- Microseconds. -/
abbrev Micros := Nat

/-- `new Date(…).toISOString()`, which keeps milliseconds. -/
def toMillis (t : Micros) : Micros := t / 1000 * 1000

/-- The columns of `payments` that the feed reads. -/
structure FeedPayment where
  id : Uuid
  restaurantId : Uuid
  billId : Uuid
  amountVes : Int
  tipVes : Int
  paymentMethod : PaymentMethod
  status : PaymentStatus
  createdAt : Micros
  deriving DecidableEq, Repr

/-- A row of `payment_transitions`. -/
structure FeedTransition where
  paymentId : Uuid
  restaurantId : Uuid
  toStatus : PaymentStatus
  createdAt : Micros
  deriving DecidableEq, Repr

structure FeedBill where
  id : Uuid
  restaurantId : Uuid
  tableId : Option Uuid
  deriving DecidableEq, Repr

structure FeedTable where
  id : Uuid
  restaurantId : Uuid
  name : String
  deriving DecidableEq, Repr

instance : Keyed FeedPayment Uuid := ⟨FeedPayment.id⟩
instance : Keyed FeedBill Uuid := ⟨FeedBill.id⟩
instance : Keyed FeedTable Uuid := ⟨FeedTable.id⟩

structure FeedDb where
  payments : Table FeedPayment
  transitions : List FeedTransition
  bills : Table FeedBill
  tables : Table FeedTable

inductive ActivityKind where
  | settled
  | declared
  deriving DecidableEq, Repr

/-- An entry of the feed. -/
structure Activity where
  kind : ActivityKind
  /-- `at`. -/
  instant : Micros
  paymentId : Uuid
  billId : Uuid
  tableId : Option Uuid
  tableName : Option String
  amountVes : Int
  tipVes : Int
  paymentMethod : PaymentMethod
  deriving DecidableEq, Repr

/-- What an entry is about. -/
def Activity.key (a : Activity) : ActivityKind × Uuid := (a.kind, a.paymentId)

/-- The entry as it is sent. -/
def Activity.sent (a : Activity) : Activity := { a with instant := toMillis a.instant }

namespace FeedDb

/-- The joins with `bills` and `tables`. -/
def entry (b : FeedDb) (restaurantId : Uuid) (kind : ActivityKind) (t : Micros) (p : FeedPayment) :
    Option Activity :=
  ((b.bills.find? p.billId).filter (·.restaurantId = restaurantId)).map fun bill =>
    { kind, instant := t, paymentId := p.id, billId := p.billId, tableId := bill.tableId
      tableName := ((bill.tableId.bind b.tables.find?).filter (·.restaurantId = restaurantId)).map (·.name)
      amountVes := p.amountVes, tipVes := p.tipVes, paymentMethod := p.paymentMethod }

/-- `$2 IS NULL OR at > $2`. -/
def after (since : Option Micros) (t : Micros) : Bool := since.all fun c => c < t

/-- The rows of `settled`. -/
def settled (b : FeedDb) (restaurantId : Uuid) (since : Option Micros) : List Activity :=
  b.transitions.filterMap fun t =>
    if t.restaurantId = restaurantId ∧ t.toStatus = .succeeded ∧ after since t.createdAt then
      ((b.payments.find? t.paymentId).filter (·.restaurantId = restaurantId)).bind
        (b.entry restaurantId .settled t.createdAt)
    else none

/-- The rows of `declared`. -/
def declared (b : FeedDb) (restaurantId : Uuid) (since : Option Micros) : List Activity :=
  b.payments.rows.filterMap fun p =>
    if p.restaurantId = restaurantId ∧ p.paymentMethod = .pagoMovil ∧ p.status = .pending ∧
        after since p.createdAt then
      b.entry restaurantId .declared p.createdAt p
    else none

/-- `SELECT * FROM settled UNION ALL SELECT * FROM declared`. -/
def window (b : FeedDb) (restaurantId : Uuid) (since : Option Micros) : List Activity :=
  b.settled restaurantId since ++ b.declared restaurantId since

/-- All the events of the restaurant. -/
abbrev events (b : FeedDb) (restaurantId : Uuid) : List Activity := b.window restaurantId none

end FeedDb

/-- The order in which the query answers. -/
def Ordered (since : Option Micros) (rows : List Activity) : Prop :=
  rows.Pairwise fun x y => if since = none then y.instant ≤ x.instant else x.instant ≤ y.instant

instance (since : Option Micros) (rows : List Activity) : Decidable (Ordered since rows) := by
  unfold Ordered
  infer_instance

/-- What the answer carries of the rows. -/
def page (since : Option Micros) (limit : Nat) (rows : List Activity) : List Activity :=
  let cut := rows.take limit
  if since = none then cut.reverse else cut

/-! ## Transactions -/

/-- A transaction that writes a payment, or that moves one. -/
inductive FeedWrite where
  | record (p : FeedPayment)
  | transition (restaurantId paymentId : Uuid) (toStatus : PaymentStatus)
  deriving DecidableEq, Repr

/-- It commits an event of the restaurant. -/
def FeedWrite.announces (restaurantId : Uuid) : FeedWrite → Bool
  | .record p => p.restaurantId = restaurantId ∧
    (p.status = .succeeded ∨ (p.status = .pending ∧ p.paymentMethod = .pagoMovil))
  | .transition restaurantId' _ toStatus => restaurantId' = restaurantId ∧ toStatus = .succeeded

def FeedPayment.moved (toStatus : PaymentStatus) (p : FeedPayment) : FeedPayment :=
  { p with status := toStatus }

/-- The commit of a transaction that began at `t`; one that fails leaves nothing. -/
def FeedDb.write (b : FeedDb) (t : Micros) : FeedWrite → FeedDb
  | .record p =>
    match b.payments.insert? { p with createdAt := t } with
    | some payments =>
      { b with payments, transitions := b.transitions ++ [⟨p.id, p.restaurantId, p.status, t⟩] }
    | none => b
  | .transition restaurantId paymentId toStatus =>
    match (b.payments.find? paymentId).filter (·.restaurantId = restaurantId) with
    | some p =>
      if toStatus ∈ p.status.ALLOWED_TRANSITIONS then
        { b with
          payments := b.payments.update paymentId (FeedPayment.moved toStatus) fun _ => rfl
          transitions := b.transitions ++ [⟨paymentId, restaurantId, toStatus, t⟩] }
      else b
    | none => b

/-! ## Polls -/

/-- A query that is answered, with no clock read yet. -/
structure FeedPage where
  rows : List Activity
  limit : Nat
  deriving DecidableEq, Repr

/-- What is committed, and a client: the cursor that it passes, its poll, and what it has got. -/
structure Feed where
  db : FeedDb
  cursor : Option Micros
  asked : Option FeedPage
  delivered : List Activity

inductive FeedStep where
  /-- A transaction that began at `t` commits. -/
  | commit (t : Micros) (write : FeedWrite)
  /-- The query of a poll, and the rows in the order in which the database answers. -/
  | query (limit : Nat) (rows : List Activity)
  /-- `new Date()`, and the answer. -/
  | answer (clock : Micros)
  deriving DecidableEq, Repr

/-- What `activitySince` returns. -/
structure FeedAnswer where
  asOf : Micros
  since : Option Micros
  data : List Activity
  deriving DecidableEq, Repr

def Feed.start (b : FeedDb) : Feed := ⟨b, none, none, []⟩

/-- Transactions and the polls of a client. -/
def feed (restaurantId : Uuid) : Machine Feed FeedStep FeedAnswer where
  step w := fun
    | .commit t write => ({ w with db := w.db.write t write }, [])
    | .query limit rows =>
      if w.asked = none ∧ rows.Perm (w.db.window restaurantId w.cursor) ∧ Ordered w.cursor rows then
        ({ w with asked := some ⟨rows, limit⟩ }, [])
      else (w, [])
    | .answer clock =>
      match w.asked with
      | none => (w, [])
      | some p =>
        let data := (page w.cursor p.limit p.rows).map Activity.sent
        let asOf := toMillis clock
        ({ w with cursor := some asOf, asked := none, delivered := w.delivered ++ data },
          [⟨asOf, w.cursor, data⟩])

/-! ## What a transaction adds to the feed -/

/-- The event has been committed: a settlement by its transition, a declaration by its payment. -/
def FeedDb.Announced (b : FeedDb) : ActivityKind × Uuid → Prop
  | (.settled, paymentId) => ∃ t ∈ b.transitions, t.toStatus = .succeeded ∧ t.paymentId = paymentId
  | (.declared, paymentId) => (b.payments.find? paymentId).isSome

/-- A payment succeeds once. -/
structure FeedDb.Sound (b : FeedDb) : Prop where
  once : ((b.transitions.filter fun t => t.toStatus = .succeeded).map (·.paymentId)).Nodup
  done : ∀ t ∈ b.transitions, t.toStatus = .succeeded →
    ∃ p, b.payments.find? t.paymentId = some p ∧ .succeeded ∉ p.status.ALLOWED_TRANSITIONS

section Writes

variable {b : FeedDb} {restaurantId : Uuid} {a a' : Activity} {t : Micros} {write : FeedWrite}
  {since : Option Micros}

theorem entry_eq_some {kind : ActivityKind} {p : FeedPayment}
    (h : b.entry restaurantId kind t p = some a) :
    a.kind = kind ∧ a.instant = t ∧ a.paymentId = p.id := by
  unfold FeedDb.entry at h
  obtain ⟨bill, -, rfl⟩ := Option.map_eq_some_iff.mp h
  exact ⟨rfl, rfl, rfl⟩

theorem mem_settled : a ∈ b.settled restaurantId since ↔
    ∃ r ∈ b.transitions, (r.restaurantId = restaurantId ∧ r.toStatus = .succeeded ∧
      FeedDb.after since r.createdAt) ∧ ∃ p, b.payments.find? r.paymentId = some p ∧
      p.restaurantId = restaurantId ∧ b.entry restaurantId .settled r.createdAt p = some a := by
  unfold FeedDb.settled
  rw [List.mem_filterMap]
  refine exists_congr fun r => and_congr_right fun _ => ?_
  split
  · rename_i h
    simp [Option.bind_eq_some_iff, Option.filter_eq_some_iff, h, and_assoc]
  · rename_i h
    simp only [reduceCtorEq, false_iff]
    exact fun h' => h h'.1

theorem mem_declared : a ∈ b.declared restaurantId since ↔
    ∃ p ∈ b.payments, (p.restaurantId = restaurantId ∧ p.paymentMethod = .pagoMovil ∧
      p.status = .pending ∧ FeedDb.after since p.createdAt) ∧
      b.entry restaurantId .declared p.createdAt p = some a := by
  unfold FeedDb.declared
  rw [List.mem_filterMap]
  refine exists_congr fun p => and_congr Iff.rfl ?_
  split
  · rename_i h
    simp [h]
  · rename_i h
    simp only [reduceCtorEq, false_iff]
    exact fun h' => h h'.1

/-- The window is what is later than the cursor. -/
theorem mem_window : a ∈ b.window restaurantId since ↔
    a ∈ b.events restaurantId ∧ FeedDb.after since a.instant := by
  have hnone : ∀ t, FeedDb.after none t = true := fun _ => rfl
  unfold FeedDb.events FeedDb.window
  rw [List.mem_append, List.mem_append, mem_settled, mem_settled, mem_declared, mem_declared]
  simp only [hnone, and_true]
  constructor
  · rintro (⟨r, hr, ⟨hrest, hst, hafter⟩, p, hp, hprest, hentry⟩ |
      ⟨p, hp, ⟨hrest, hmethod, hst, hafter⟩, hentry⟩)
    · refine ⟨.inl ⟨r, hr, ⟨hrest, hst⟩, p, hp, hprest, hentry⟩, ?_⟩
      rw [(entry_eq_some hentry).2.1]
      exact hafter
    · refine ⟨.inr ⟨p, hp, ⟨hrest, hmethod, hst⟩, hentry⟩, ?_⟩
      rw [(entry_eq_some hentry).2.1]
      exact hafter
  · rintro ⟨⟨r, hr, ⟨hrest, hst⟩, p, hp, hprest, hentry⟩ |
      ⟨p, hp, ⟨hrest, hmethod, hst⟩, hentry⟩, hafter⟩
    · rw [(entry_eq_some hentry).2.1] at hafter
      exact .inl ⟨r, hr, ⟨hrest, hst, hafter⟩, p, hp, hprest, hentry⟩
    · rw [(entry_eq_some hentry).2.1] at hafter
      exact .inr ⟨p, hp, ⟨hrest, hmethod, hst, hafter⟩, hentry⟩

theorem events_announced (h : a ∈ b.events restaurantId) : b.Announced a.key := by
  rcases List.mem_append.mp h with h | h
  · obtain ⟨r, hr, ⟨-, hst, -⟩, p, hp, -, hentry⟩ := mem_settled.mp h
    obtain ⟨hkind, -, hid⟩ := entry_eq_some hentry
    rw [Activity.key, hkind, hid]
    exact ⟨r, hr, hst, (Table.find?_key hp).symm⟩
  · obtain ⟨p, hp, -, hentry⟩ := mem_declared.mp h
    obtain ⟨hkind, -, hid⟩ := entry_eq_some hentry
    rw [Activity.key, hkind, hid]
    exact Option.isSome_iff_exists.mpr ⟨p, Table.find?_eq_some.mpr ⟨hp, rfl⟩⟩

/-- The keys of what is picked out of a list come in the order of the list. -/
theorem map_filterMap_sublist {α β γ : Type} {pick : α → Option β} {key : β → γ} {p : α → Bool}
    {k : α → γ} (h : ∀ x y, pick x = some y → p x = true ∧ key y = k x) (l : List α) :
    ((l.filterMap pick).map key).Sublist ((l.filter p).map k) := by
  induction l with
  | nil => exact .slnil
  | cons x l ih =>
    cases hx : pick x with
    | none =>
      rw [List.filterMap_cons_none hx]
      exact ih.trans ((List.sublist_cons_self x l).filter p |>.map k)
    | some y =>
      obtain ⟨hp, hk⟩ := h x y hx
      rw [List.filterMap_cons_some hx, List.map_cons, List.filter_cons_of_pos hp, List.map_cons, hk]
      exact ih.cons_cons (k x)

theorem window_nodup (h : b.Sound) : ((b.window restaurantId since).map Activity.key).Nodup := by
  have hsettled : ((b.settled restaurantId since).map Activity.key).Sublist
      ((b.transitions.filter fun t => t.toStatus = .succeeded).map fun t =>
        (ActivityKind.settled, t.paymentId)) := by
    refine map_filterMap_sublist (fun r a hr => ?_) b.transitions
    split at hr
    · rename_i hcond
      obtain ⟨p, hp, hentry⟩ := Option.bind_eq_some_iff.mp hr
      obtain ⟨hkind, -, hid⟩ := entry_eq_some hentry
      refine ⟨by simpa using hcond.2.1, ?_⟩
      rw [Activity.key, hkind, hid, ← Table.find?_key (Option.filter_eq_some_iff.mp hp).1]
      rfl
    · cases hr
  have hdeclared : ((b.declared restaurantId since).map Activity.key).Sublist
      ((b.payments.rows.filter fun _ => true).map fun p => (ActivityKind.declared, p.id)) := by
    refine map_filterMap_sublist (fun p a hp => ?_) b.payments.rows
    split at hp
    · obtain ⟨hkind, -, hid⟩ := entry_eq_some hp
      exact ⟨rfl, by rw [Activity.key, hkind, hid]⟩
    · cases hp
  have hpairs : ∀ (kind : ActivityKind) {l : List Uuid}, l.Nodup → (l.map fun id => (kind, id)).Nodup :=
    fun kind _ hl => hl.map fun _ _ heq => (Prod.mk.inj heq).2
  unfold FeedDb.window
  rw [List.map_append, List.nodup_append']
  refine ⟨hsettled.nodup ?_, hdeclared.nodup ?_, fun k hk hk' => ?_⟩
  · have := hpairs .settled h.once
    rw [List.map_map] at this
    exact this
  · rw [List.filter_true]
    have := hpairs .declared b.payments.nodup
    rw [List.map_map] at this
    exact this
  · obtain ⟨t, -, rfl⟩ := List.mem_map.mp (hsettled.subset hk)
    obtain ⟨p, -, heq⟩ := List.mem_map.mp (hdeclared.subset hk')
    cases heq

theorem events_key_inj (h : b.Sound) (ha : a ∈ b.events restaurantId) (ha' : a' ∈ b.events restaurantId)
    (hkey : a.key = a'.key) : a = a' :=
  List.inj_on_of_nodup_map (window_nodup h) ha ha' hkey

/-- What a payment that has succeeded may become does not succeed again. -/
theorem not_succeeded_again {s s' : PaymentStatus} (h : .succeeded ∉ s.ALLOWED_TRANSITIONS)
    (hs : s' ∈ s.ALLOWED_TRANSITIONS) : .succeeded ∉ s'.ALLOWED_TRANSITIONS := by
  revert h hs
  cases s <;> cases s' <;> decide

/-- The commit of a transaction: nothing, a new payment, or a payment that moves. -/
inductive Written (b : FeedDb) (t : Micros) : FeedWrite → FeedDb → Prop where
  | nothing (write : FeedWrite) : Written b t write b
  | recorded (p : FeedPayment) (payments : Table FeedPayment) : b.payments.find? p.id = none →
      (∀ id, payments.find? id = if id = p.id then some { p with createdAt := t }
        else b.payments.find? id) →
      Written b t (.record p)
        { b with payments, transitions := b.transitions ++ [⟨p.id, p.restaurantId, p.status, t⟩] }
  | moved (restaurantId : Uuid) (p : FeedPayment) (toStatus : PaymentStatus)
      (payments : Table FeedPayment) :
      b.payments.find? p.id = some p → toStatus ∈ p.status.ALLOWED_TRANSITIONS →
      (∀ id, payments.find? id = if id = p.id then some (p.moved toStatus)
        else b.payments.find? id) →
      Written b t (.transition restaurantId p.id toStatus)
        { b with payments, transitions := b.transitions ++ [⟨p.id, restaurantId, toStatus, t⟩] }

theorem write_written : Written b t write (b.write t write) := by
  unfold FeedDb.write
  split
  · split
    · rename_i payments hins
      exact .recorded _ payments (Table.find?_eq_none.mpr (Table.insert?_eq_some.mp hins).1) fun id =>
        Table.find?_insert? hins
    · exact .nothing _
  · split
    · rename_i p hp
      have hfind := (Option.filter_eq_some_iff.mp hp).1
      obtain rfl := Table.find?_key hfind
      split
      · rename_i toStatus hallowed
        refine .moved _ p _ _ hfind hallowed fun id => ?_
        refine (Table.find?_update_with (FeedPayment.moved _) (fun _ => rfl) id).trans ?_
        by_cases hid : id = p.id
        · refine (if_pos hid).trans (Eq.trans ?_ (if_pos hid).symm)
          rw [hid]
          exact congrArg (Option.map _) hfind
        · exact (if_neg hid).trans (if_neg hid).symm
      · exact .nothing _
    · exact .nothing _

theorem Written.announced {b' : FeedDb} (h : Written b t write b') {k : ActivityKind × Uuid}
    (hk : b.Announced k) : b'.Announced k := by
  obtain ⟨kind, paymentId⟩ := k
  cases kind with
  | settled =>
    obtain ⟨r, hr, hrest⟩ := hk
    cases h with
    | nothing => exact ⟨r, hr, hrest⟩
    | recorded p payments hnone hfind => exact ⟨r, List.mem_append_left _ hr, hrest⟩
    | moved restaurantId p toStatus payments hp hallowed hfind =>
      exact ⟨r, List.mem_append_left _ hr, hrest⟩
  | declared =>
    cases h with
    | nothing => exact hk
    | recorded p payments hnone hfind =>
      change (payments.find? paymentId).isSome
      rw [hfind]
      split
      · rfl
      · exact hk
    | moved restaurantId p toStatus payments hp hallowed hfind =>
      change (payments.find? paymentId).isSome
      rw [hfind]
      split
      · rfl
      · exact hk

/-- One more transition, which is not the second success of its payment. -/
theorem once_append (h : b.Sound) {r : FeedTransition}
    (hr : r.toStatus = .succeeded → ∀ r' ∈ b.transitions, r'.toStatus = .succeeded →
      r'.paymentId ≠ r.paymentId) :
    (((b.transitions ++ [r]).filter fun t => t.toStatus = .succeeded).map (·.paymentId)).Nodup := by
  rw [List.filter_append, List.map_append, List.nodup_append']
  refine ⟨h.once, ?_, fun id hid hid' => ?_⟩
  · by_cases hst : r.toStatus = .succeeded
    · simp [hst]
    · simp [hst]
  · obtain ⟨r', hr', rfl⟩ := List.mem_map.mp hid
    obtain ⟨r'', hr'', heq⟩ := List.mem_map.mp hid'
    obtain ⟨hmem, hst⟩ := List.mem_filter.mp hr''
    rw [List.mem_singleton.mp hmem] at heq hst
    exact hr (by simpa using hst) r' (List.mem_filter.mp hr').1
      (by simpa using (List.mem_filter.mp hr').2) heq.symm

theorem Written.sound {b' : FeedDb} (h : Written b t write b') (hb : b.Sound) : b'.Sound := by
  cases h with
  | nothing => exact hb
  | recorded p payments hnone hfind =>
    have hfresh : ∀ r ∈ b.transitions, r.toStatus = .succeeded → r.paymentId ≠ p.id := by
      intro r hr hst heq
      obtain ⟨q, hq, -⟩ := hb.done r hr hst
      rw [heq, hnone] at hq
      cases hq
    refine ⟨once_append hb fun _ => hfresh, fun r hr hst => ?_⟩
    rcases List.mem_append.mp hr with hr | hr
    · obtain ⟨q, hq, hdone⟩ := hb.done r hr hst
      refine ⟨q, (hfind _).trans ?_, hdone⟩
      rw [if_neg (hfresh r hr hst)]
      exact hq
    · obtain rfl := List.mem_singleton.mp hr
      refine ⟨{ p with createdAt := t }, (hfind _).trans (if_pos rfl), ?_⟩
      change .succeeded ∉ p.status.ALLOWED_TRANSITIONS
      rw [show p.status = .succeeded from hst]
      decide
  | moved restaurantId p toStatus payments hp hallowed hfind =>
    refine ⟨once_append hb ?_, fun r hr hst => ?_⟩
    · rintro rfl r hr hst heq
      obtain ⟨q, hq, hdone⟩ := hb.done r hr hst
      rw [heq, hp] at hq
      cases hq
      exact hdone hallowed
    · rcases List.mem_append.mp hr with hr | hr
      · obtain ⟨q, hq, hdone⟩ := hb.done r hr hst
        by_cases hid : r.paymentId = p.id
        · rw [hid, hp] at hq
          cases hq
          exact ⟨p.moved toStatus, (hfind _).trans (if_pos hid),
            not_succeeded_again hdone hallowed⟩
        · exact ⟨q, (hfind _).trans ((if_neg hid).trans hq), hdone⟩
      · obtain rfl := List.mem_singleton.mp hr
        refine ⟨p.moved toStatus, (hfind _).trans (if_pos rfl), ?_⟩
        change .succeeded ∉ toStatus.ALLOWED_TRANSITIONS
        rw [show toStatus = .succeeded from hst]
        decide

theorem pending_not_allowed (s : PaymentStatus) : .pending ∉ s.ALLOWED_TRANSITIONS := by
  cases s <;> decide

/-- A transaction adds to the feed what it announces, which the feed has not had before, under the time at
which it began. -/
theorem Written.events {b' : FeedDb} (h : Written b t write b') (hb : b.Sound)
    (ha : a ∈ b'.events restaurantId) : a ∈ b.events restaurantId ∨
      (¬b.Announced a.key ∧ a.instant = t ∧ write.announces restaurantId = true) := by
  have hsettled : ∀ {r p}, r ∈ b.transitions → r.restaurantId = restaurantId →
      r.toStatus = .succeeded → b.payments.find? r.paymentId = some p → p.restaurantId = restaurantId →
      b.entry restaurantId .settled r.createdAt p = some a → a ∈ b.events restaurantId :=
    fun hr hrest hst hp hprest hentry =>
      List.mem_append_left _ (mem_settled.mpr ⟨_, hr, ⟨hrest, hst, rfl⟩, _, hp, hprest, hentry⟩)
  have hdeclared : ∀ {p}, b.payments.find? p.id = some p → p.restaurantId = restaurantId →
      p.paymentMethod = .pagoMovil → p.status = .pending →
      b.entry restaurantId .declared p.createdAt p = some a → a ∈ b.events restaurantId :=
    fun hp hrest hmethod hst hentry =>
      List.mem_append_right _ (mem_declared.mpr
        ⟨_, Table.find?_mem hp, ⟨hrest, hmethod, hst, rfl⟩, hentry⟩)
  cases h with
  | nothing => exact .inl ha
  | recorded p payments hnone hfind =>
    have hfresh : ∀ r ∈ b.transitions, r.toStatus = .succeeded → r.paymentId ≠ p.id := by
      intro r hr hst heq
      obtain ⟨q, hq, -⟩ := hb.done r hr hst
      rw [heq, hnone] at hq
      cases hq
    rcases List.mem_append.mp ha with ha | ha
    · obtain ⟨r, hr, ⟨hrest, hst, -⟩, q, hq, hqrest, hentry⟩ := mem_settled.mp ha
      replace hq := (hfind _).symm.trans hq
      rcases List.mem_append.mp hr with hr | hr
      · rw [if_neg (hfresh r hr hst)] at hq
        exact .inl (hsettled hr hrest hst hq hqrest hentry)
      · obtain rfl := List.mem_singleton.mp hr
        rw [if_pos rfl] at hq
        cases hq
        obtain ⟨hkind, hinstant, hid⟩ := entry_eq_some hentry
        refine .inr ⟨?_, hinstant, ?_⟩
        · rw [Activity.key, hkind, hid]
          rintro ⟨r, hr, hst', heq⟩
          exact hfresh r hr hst' heq
        · simpa [FeedWrite.announces] using ⟨hrest, .inl hst⟩
    · obtain ⟨q, hq, ⟨hrest, hmethod, hst, -⟩, hentry⟩ := mem_declared.mp ha
      have hq' : payments.find? q.id = some q := Table.find?_eq_some.mpr ⟨hq, rfl⟩
      rw [hfind] at hq'
      split at hq'
      · cases hq'
        obtain ⟨hkind, hinstant, hid⟩ := entry_eq_some hentry
        refine .inr ⟨?_, hinstant, ?_⟩
        · rw [Activity.key, hkind, hid]
          change ¬(b.payments.find? p.id).isSome = true
          rw [hnone]
          nofun
        · simpa [FeedWrite.announces] using ⟨hrest, .inr ⟨hst, hmethod⟩⟩
      · exact .inl (hdeclared hq' hrest hmethod hst hentry)
  | moved restaurantId' p toStatus payments hp hallowed hfind =>
    rcases List.mem_append.mp ha with ha | ha
    · obtain ⟨r, hr, ⟨hrest, hst, -⟩, q, hq, hqrest, hentry⟩ := mem_settled.mp ha
      replace hq := (hfind _).symm.trans hq
      rcases List.mem_append.mp hr with hr | hr
      · split at hq
        · rename_i hid
          cases hq
          rw [← hid] at hp
          exact .inl (hsettled hr hrest hst hp hqrest hentry)
        · exact .inl (hsettled hr hrest hst hq hqrest hentry)
      · obtain rfl := List.mem_singleton.mp hr
        rw [if_pos rfl] at hq
        cases hq
        obtain ⟨hkind, hinstant, hid⟩ := entry_eq_some hentry
        refine .inr ⟨?_, hinstant, by simpa [FeedWrite.announces] using ⟨hrest, hst⟩⟩
        rw [Activity.key, hkind, hid]
        rintro ⟨r, hr, hst', heq⟩
        obtain ⟨q, hq, hdone⟩ := hb.done r hr hst'
        rw [heq] at hq
        obtain rfl := Option.some.inj (hp.symm.trans hq)
        rw [show toStatus = .succeeded from hst] at hallowed
        exact hdone hallowed
    · obtain ⟨q, hq, ⟨hrest, hmethod, hst, -⟩, hentry⟩ := mem_declared.mp ha
      have hq' : payments.find? q.id = some q := Table.find?_eq_some.mpr ⟨hq, rfl⟩
      rw [hfind] at hq'
      split at hq'
      · cases hq'
        rw [show toStatus = .pending from hst] at hallowed
        exact absurd hallowed (pending_not_allowed _)
      · exact .inl (hdeclared hq' hrest hmethod hst hentry)

end Writes

/-! ## Polls -/

/-- The keys of what the client has got. -/
def Feed.got (w : Feed) : List (ActivityKind × Uuid) := w.delivered.map Activity.key

/-- The client has got every event that is not later than its cursor, which the next poll will not
find, and none twice. -/
structure Feed.Complete (restaurantId : Uuid) (w : Feed) : Prop where
  arrived : ∀ a ∈ w.db.events restaurantId, ∀ c ∈ w.cursor, a.instant ≤ c → a.key ∈ w.got
  once : w.got.Nodup

/-- A transaction that announces an event began after the cursor of the client. When the clock is read,
what the client has got and what is on the page are not later; what the limit has cut off is later, and
so is what has been committed since the query. -/
def Timely (restaurantId : Uuid) (w : Feed) : FeedStep → Prop
  | .commit t write => write.announces restaurantId = true → ∀ c ∈ w.cursor, c < t
  | .query _ _ => True
  | .answer clock => ∀ p ∈ w.asked, ∀ a ∈ w.db.events restaurantId,
    (a.key ∈ w.got ∨ a ∈ p.rows.take p.limit → a.instant ≤ toMillis clock) ∧
    (a ∈ p.rows.drop p.limit → toMillis clock < a.instant) ∧
    (a ∉ p.rows → FeedDb.after w.cursor a.instant → toMillis clock < a.instant)

instance (restaurantId : Uuid) (w : Feed) (s : FeedStep) : Decidable (Timely restaurantId w s) := by
  unfold Timely
  split <;> infer_instance

/-- The cursor tells what the client has got from what it has not, and a page that is under way has only
what it has not. -/
structure Feed.Sound (restaurantId : Uuid) (w : Feed) : Prop where
  db : w.db.Sound
  once : w.got.Nodup
  announced : ∀ k ∈ w.got, w.db.Announced k
  past : ∀ a ∈ w.db.events restaurantId, a.key ∈ w.got → ∃ c ∈ w.cursor, a.instant ≤ c
  awaited : ∀ a ∈ w.db.events restaurantId, a.key ∉ w.got → FeedDb.after w.cursor a.instant = true
  nodup : ∀ p ∈ w.asked, (p.rows.map Activity.key).Nodup
  fresh : ∀ p ∈ w.asked, ∀ x ∈ p.rows, w.db.Announced x.key ∧ x.key ∉ w.got
  same : ∀ p ∈ w.asked, ∀ x ∈ p.rows, ∀ a ∈ w.db.events restaurantId, a.key = x.key → a = x

section Polls

variable {restaurantId : Uuid} {w : Feed} {t : Micros} {write : FeedWrite} {limit : Nat}
  {rows : List Activity} {clock : Micros}

theorem after_eq_true {since : Option Micros} : FeedDb.after since t = true ↔ ∀ c ∈ since, c < t := by
  cases since <;> simp [FeedDb.after]

theorem Feed.Sound.complete (h : w.Sound restaurantId) : w.Complete restaurantId where
  arrived a ha c hc hle := by
    by_contra hgot
    exact absurd (after_eq_true.mp (h.awaited a ha hgot) c hc) (Nat.not_lt.mpr hle)
  once := h.once

theorem commit_sound (h : w.Sound restaurantId)
    (htime : write.announces restaurantId = true → ∀ c ∈ w.cursor, c < t) :
    ({ w with db := w.db.write t write } : Feed).Sound restaurantId := by
  have hwritten : Written w.db t write (w.db.write t write) := write_written
  have hnew : ∀ {a}, a ∈ (w.db.write t write).events restaurantId → a ∈ w.db.events restaurantId ∨
      (¬w.db.Announced a.key ∧ a.instant = t ∧ write.announces restaurantId = true) :=
    hwritten.events h.db
  refine ⟨hwritten.sound h.db, h.once, fun k hk => hwritten.announced (h.announced k hk), ?_, ?_, h.nodup,
    fun p hp x hx => ⟨hwritten.announced (h.fresh p hp x hx).1, (h.fresh p hp x hx).2⟩, ?_⟩
  · intro a ha hgot
    rcases hnew ha with hold | ⟨hnot, -, -⟩
    · exact h.past a hold hgot
    · exact absurd (h.announced _ hgot) hnot
  · intro a ha hgot
    rcases hnew ha with hold | ⟨-, hinstant, hannounces⟩
    · exact h.awaited a hold hgot
    · rw [hinstant]
      exact after_eq_true.mpr (htime hannounces)
  · intro p hp x hx a ha hkey
    rcases hnew ha with hold | ⟨hnot, -, -⟩
    · exact h.same p hp x hx a hold hkey
    · rw [hkey] at hnot
      exact absurd (h.fresh p hp x hx).1 hnot

theorem query_sound (h : w.Sound restaurantId)
    (hrows : rows.Perm (w.db.window restaurantId w.cursor)) :
    ({ w with asked := some ⟨rows, limit⟩ } : Feed).Sound restaurantId := by
  have hmem : ∀ x ∈ rows, x ∈ w.db.events restaurantId ∧ FeedDb.after w.cursor x.instant = true :=
    fun x hx => mem_window.mp (hrows.mem_iff.mp hx)
  refine ⟨h.db, h.once, h.announced, h.past, h.awaited, ?_, ?_, ?_⟩
  · rintro p hp
    obtain rfl := Option.some.inj hp
    exact (hrows.map Activity.key).nodup_iff.mpr (window_nodup h.db)
  · rintro p hp x hx
    obtain rfl := Option.some.inj hp
    refine ⟨events_announced (hmem x hx).1, fun hgot => ?_⟩
    obtain ⟨c, hc, hle⟩ := h.past x (hmem x hx).1 hgot
    exact absurd (after_eq_true.mp (hmem x hx).2 c hc) (Nat.not_lt.mpr hle)
  · rintro p hp x hx a ha hkey
    obtain rfl := Option.some.inj hp
    exact events_key_inj h.db ha (hmem x hx).1 hkey

/-- The entries of a page are those that the limit leaves, in the order of the page. -/
theorem page_keys {since : Option Micros} :
    (((page since limit rows).map Activity.sent).map Activity.key).Perm
      ((rows.take limit).map Activity.key) := by
  rw [List.map_map]
  have hkey : Activity.key ∘ Activity.sent = Activity.key := rfl
  rw [hkey]
  refine List.Perm.map _ ?_
  unfold page
  dsimp only
  split
  · exact List.reverse_perm _
  · exact .refl _

theorem answer_sound (h : w.Sound restaurantId) {p : FeedPage} (hp : w.asked = some p)
    (htime : Timely restaurantId w (.answer clock)) :
    ({ w with
      cursor := some (toMillis clock), asked := none
      delivered := w.delivered ++ (page w.cursor p.limit p.rows).map Activity.sent } : Feed).Sound
        restaurantId := by
  have hevents := htime p hp
  have hkeys : (((page w.cursor p.limit p.rows).map Activity.sent).map Activity.key).Perm
      ((p.rows.take p.limit).map Activity.key) := page_keys
  have hgot : ∀ k, k ∈ (w.delivered ++ (page w.cursor p.limit p.rows).map Activity.sent).map
      Activity.key ↔ k ∈ w.got ∨ k ∈ (p.rows.take p.limit).map Activity.key := by
    intro k
    rw [List.map_append, List.mem_append, hkeys.mem_iff]
    rfl
  refine ⟨h.db, ?_, fun k hk => ?_, fun a ha hk => ?_, fun a ha hk => ?_, nofun, nofun, nofun⟩
  · change ((w.delivered ++ _).map Activity.key).Nodup
    rw [List.map_append, List.nodup_append']
    refine ⟨h.once, hkeys.nodup_iff.mpr ?_, fun k hk hk' => ?_⟩
    · exact ((List.take_sublist _ _).map _).nodup (h.nodup p hp)
    · obtain ⟨x, hx, rfl⟩ := List.mem_map.mp (hkeys.mem_iff.mp hk')
      exact (h.fresh p hp x (List.mem_of_mem_take hx)).2 hk
  · rcases (hgot k).mp hk with hk | hk
    · exact h.announced k hk
    · obtain ⟨x, hx, rfl⟩ := List.mem_map.mp hk
      exact (h.fresh p hp x (List.mem_of_mem_take hx)).1
  · refine ⟨toMillis clock, rfl, ?_⟩
    rcases (hgot _).mp hk with hk | hk
    · exact (hevents a ha).1 (.inl hk)
    · obtain ⟨x, hx, hkey⟩ := List.mem_map.mp hk
      obtain rfl := h.same p hp x (List.mem_of_mem_take hx) a ha hkey.symm
      exact (hevents a ha).1 (.inr hx)
  · have hnot := mt (hgot _).mpr hk
    rw [not_or] at hnot
    refine after_eq_true.mpr fun c hc => ?_
    obtain rfl := Option.some.inj hc
    by_cases hrow : a ∈ p.rows
    · rw [← List.take_append_drop p.limit p.rows, List.mem_append] at hrow
      rcases hrow with hrow | hrow
      · exact absurd (List.mem_map_of_mem hrow) hnot.2
      · exact (hevents a ha).2.1 hrow
    · exact (hevents a ha).2.2 hrow (h.awaited a ha hnot.1)

theorem step_sound (h : w.Sound restaurantId) (s : FeedStep) (htime : Timely restaurantId w s) :
    ((feed restaurantId).step w s).1.Sound restaurantId := by
  cases s with
  | commit t write => exact commit_sound h htime
  | query limit rows =>
    unfold feed
    dsimp only
    split
    · rename_i hasked
      exact query_sound h hasked.2.1
    · exact h
  | answer clock =>
    unfold feed
    dsimp only
    split
    · exact h
    · rename_i p hp
      exact answer_sound h hp htime

theorem Feed.Sound.start {b : FeedDb} (h : b.Sound) : (Feed.start b).Sound restaurantId :=
  ⟨h, List.nodup_nil, nofun, nofun, fun _ _ _ => rfl, nofun, nofun, nofun⟩

end Polls

/-- A restaurant with one open bill, and no payments yet. -/
def quietEvening : FeedDb := ⟨∅, [], ⟨[⟨10, 1, none⟩], by simp⟩, ∅⟩

def cashPayment (id : Uuid) : FeedPayment := ⟨id, 1, 10, 5000, 0, .cash, .succeeded, 0⟩

def cashEntry (id : Uuid) (t : Micros) : Activity := ⟨.settled, t, id, 10, none, none, 5000, 0, .cash⟩

/-- A transaction that began before a poll and commits after it is lost as well. -/
example : ¬((feed 1).run (Feed.start quietEvening)
    [.query 50 [], .answer 2000000, .commit 1900000 (.record (cashPayment 20))]).Complete 1 := by
  intro h
  have := h.arrived (cashEntry 20 1900000) (by decide +kernel) 2000000 (by decide +kernel) (by decide)
  revert this
  decide +kernel

end Splite
