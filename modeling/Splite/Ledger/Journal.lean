import Splite.Ledger.Indexes
import Splite.Lib.Journal

/-!
# The history of a payment (`payment_transitions`)

The table is written in the transaction of the change that it records. In every run of the ledger the rows
of a payment are a journal of its status, and none of them is taken back.

* `recordPayment_journal`, `transitionPayment_journal`: the row that each of the two writes.
* `history_replays`: the journal leads to the status, enters `SUCCEEDED` once at most, and only grows.
-/

namespace Splite

/-- The statuses that a payment is recorded with. -/
def PaymentStatus.Begins (status : PaymentStatus) : Prop := status = .pending ∨ status = .succeeded

def PaymentStatus.Allowed (status status' : PaymentStatus) : Prop := status' ∈ status.ALLOWED_TRANSITIONS

/-- The rows of `payment_transitions` of one payment. -/
def Db.history (s : Db) (paymentId : Uuid) : List (Option PaymentStatus × PaymentStatus) :=
  (s.transitions.filter fun t => t.paymentId = paymentId).map fun t => (t.fromStatus, t.toStatus)

/-- The status of every payment is what its history leads to, and there is no history of another payment. -/
structure Db.Journaled (s : Db) : Prop where
  replays : ∀ p ∈ s.payments, Replays PaymentStatus.Begins PaymentStatus.Allowed (s.history p.id) p.status
  known : ∀ t ∈ s.transitions, ∃ p ∈ s.payments, p.id = t.paymentId ∧ p.restaurantId = t.restaurantId

variable {s s' : Db} {restaurantId paymentId : Uuid}

theorem history_append (t : PaymentTransition) (id : Uuid)
    (h : s'.transitions = s.transitions ++ [t]) :
    s'.history id = s.history id ++ if t.paymentId = id then [(t.fromStatus, t.toStatus)] else [] := by
  unfold Db.history
  rw [h, List.filter_append, List.map_append]
  by_cases hid : t.paymentId = id
  · simp [hid]
  · simp [hid]

/-! ## The rows that are written -/

theorem recordPayment_journal {now : Time} {p : NewPayment} {row : Payment}
    (h : (recordPayment paymentId now p).run s = .ok row s') :
    row.restaurantId = p.restaurantId ∧ row.status = p.status ∧
      s.payments.insert? row = some s'.payments ∧
      s'.transitions = s.transitions ++ [⟨row.id, p.restaurantId, none, p.status, p.reason⟩] := by
  unfold recordPayment at h
  simp only [Tx.bind_ok, Tx.run_pure] at h
  obtain ⟨_, s₁, hins, _, s₂, happ, _, s₃, hcredit, ⟨rfl, rfl⟩⟩ := h
  obtain ⟨⟨-, -, hrest, hbill, hamount, -, hstatus, -, -, -, hshare, -⟩, -, payments, hpay, rfl⟩ :=
    insertPayment_ok hins
  obtain ⟨-, rfl⟩ := by simpa [appendTransition] using happ
  obtain ⟨shares, -, rfl⟩ := creditShare_ok hbill hamount hshare hcredit
  exact ⟨hrest, hstatus, hpay, rfl⟩

theorem transitionPayment_journal {toStatus : PaymentStatus} {reason : Option String} {mode : OnShareRefusal}
    {m : Moved} (h : (transitionPayment restaurantId paymentId toStatus reason mode).run s = .ok m s') :
    s' = s ∨ ∃ current detached, s.payment? restaurantId paymentId = some current ∧
      toStatus ∈ current.status.ALLOWED_TRANSITIONS ∧
      s'.payments = s.payments.update paymentId (Payment.moved toStatus detached) (fun _ => rfl) ∧
      s'.transitions = s.transitions ++ [⟨paymentId, restaurantId, some current.status, toStatus, reason⟩] := by
  unfold transitionPayment at h
  simp only [Tx.bind_ok, Tx.run_get, Tx.orThrow_ok] at h
  obtain ⟨_, _, ⟨rfl, rfl⟩, current, _, ⟨hcur, rfl⟩, h⟩ := h
  split at h
  · exact .inl (Tx.pure_ok.mp h).2
  · simp only [Tx.bind_ok, Tx.require_ok] at h
    obtain ⟨_, _, ⟨hallow, rfl⟩, updated, s₁, hup, _, s₂, happ, h⟩ := h
    rcases updatePayment_ok hup with ⟨hnone, -, -⟩ | ⟨_, -, -, -, -, -, -, rfl⟩
    · simp [hcur] at hnone
    obtain ⟨-, rfl⟩ := by simpa [appendTransition] using happ
    have hid : current.id = paymentId := Table.find?_key (payment?_eq_some.mp hcur).1
    rcases settleShare_ok h with ⟨-, rfl⟩ | ⟨id, -, -, hadv⟩ | ⟨rfl, hto, hsome, ⟨hnone, rfl⟩ | rfl⟩
    · exact .inr ⟨current, false, hcur, hallow, rfl, rfl⟩
    · obtain ⟨share, split, -, -, -, -, rfl⟩ := advanceShare_ok hadv
      exact .inr ⟨current, false, hcur, hallow, rfl, rfl⟩
    · -- The row that has just been moved is there.
      obtain ⟨hfind, hrest⟩ := payment?_eq_some.mp hcur
      rw [hid] at hnone
      simp [Db.payment?, Table.find?_update, hfind, hrest] at hnone
    · refine .inr ⟨current, true, hcur, hallow, ?_, rfl⟩
      simp only [hid, Table.update_update]
      rfl

/-! ## What every statement keeps -/

/-- The journal stays one, and nothing of it is taken back. -/
structure Journals (s s' : Db) : Prop where
  journaled : s.Journaled → s'.Journaled
  appended : s.transitions <+: s'.transitions

instance : Std.Refl Journals := ⟨fun _ => ⟨id, List.prefix_rfl⟩⟩

instance : IsTrans Db Journals :=
  ⟨fun _ _ _ h h' => ⟨fun hs => h'.journaled (h.journaled hs), h.appended.trans h'.appended⟩⟩

theorem Journals.of_frame (hpay : s'.payments = s.payments) (htrans : s'.transitions = s.transitions) :
    Journals s s' := by
  refine ⟨fun h => ⟨?_, ?_⟩, htrans ▸ List.prefix_rfl⟩
  · unfold Db.history
    rw [hpay, htrans]
    exact h.replays
  · rw [hpay, htrans]
    exact h.known

/-- A payment keeps its status and its restaurant. -/
theorem Journals.of_update (f : Payment → Payment) (hf : ∀ p, (f p).id = p.id)
    (hstatus : ∀ p, (f p).status = p.status) (hrest : ∀ p, (f p).restaurantId = p.restaurantId)
    (hpay : s'.payments = s.payments.update paymentId f hf) (htrans : s'.transitions = s.transitions) :
    Journals s s' := by
  have hpick : ∀ p : Payment, (if Keyed.key p = paymentId then f p else p).id = p.id ∧
      (if Keyed.key p = paymentId then f p else p).status = p.status ∧
      (if Keyed.key p = paymentId then f p else p).restaurantId = p.restaurantId := by
    intro p
    split
    · exact ⟨hf p, hstatus p, hrest p⟩
    · exact ⟨rfl, rfl, rfl⟩
  refine ⟨fun h => ⟨fun p hp => ?_, fun t ht => ?_⟩, htrans ▸ List.prefix_rfl⟩
  · rw [hpay] at hp
    obtain ⟨p₀, hp₀, rfl⟩ := Table.mem_update.mp hp
    obtain ⟨hid, hsame, -⟩ := hpick p₀
    unfold Db.history
    rw [hid, hsame, htrans]
    exact h.replays p₀ hp₀
  · rw [htrans] at ht
    obtain ⟨p, hp, hid, hrestaurant⟩ := h.known t ht
    obtain ⟨hid', -, hrest'⟩ := hpick p
    refine ⟨_, hpay ▸ Table.mem_update.mpr ⟨p, hp, rfl⟩, hid'.trans hid, hrest'.trans hrestaurant⟩

theorem journals_recordPayment {now : Time} {p : NewPayment} (hp : p.status.Begins) :
    Tx.Keeps Journals (recordPayment paymentId now p) := by
  intro s row s' hrun
  obtain ⟨hrest, hstatus, hins, htrans⟩ := recordPayment_journal hrun
  have hnew := (Table.insert?_eq_some.mp hins).1
  refine ⟨fun h => ⟨fun q hq => ?_, fun t ht => ?_⟩, htrans ▸ List.prefix_append _ _⟩
  · rw [history_append _ q.id htrans]
    rcases (Table.mem_insert? hins).mp hq with hq | rfl
    · rw [if_neg (fun heq => hnew q hq heq.symm), List.append_nil]
      exact h.replays q hq
    · -- No row is there of a payment that is not.
      have hnone : s.history q.id = [] := by
        unfold Db.history
        rw [List.map_eq_nil_iff, List.filter_eq_nil_iff]
        intro t ht heq
        obtain ⟨p₀, hp₀, hid, -⟩ := h.known t ht
        exact hnew p₀ hp₀ (hid.trans (of_decide_eq_true heq))
      rw [hnone, if_pos rfl, List.nil_append, hstatus]
      exact .begin hp
  · rw [htrans] at ht
    rcases List.mem_append.mp ht with ht | ht
    · obtain ⟨q, hq, hid, hsame⟩ := h.known t ht
      exact ⟨q, (Table.mem_insert? hins).mpr (.inl hq), hid, hsame⟩
    · obtain rfl := List.mem_singleton.mp ht
      exact ⟨row, (Table.mem_insert? hins).mpr (.inr rfl), rfl, hrest⟩

theorem journals_transitionPayment {toStatus : PaymentStatus} {reason : Option String} {mode : OnShareRefusal} :
    Tx.Keeps Journals (transitionPayment restaurantId paymentId toStatus reason mode) := by
  intro s m s' hrun
  rcases transitionPayment_journal hrun with rfl | ⟨current, detached, hcur, hallow, hpay, htrans⟩
  · exact refl_of Journals _
  obtain ⟨hfind, hrest⟩ := payment?_eq_some.mp hcur
  have hid : current.id = paymentId := Table.find?_key hfind
  have hmem : ∀ q, q ∈ s'.payments ↔ q = current.moved toStatus detached ∨ (q ∈ s.payments ∧ q.id ≠ paymentId) :=
    fun q => by
      rw [hpay]
      exact Table.mem_update_of_find (Payment.moved toStatus detached) (fun _ => rfl) hfind
  refine ⟨fun h => ⟨fun q hq => ?_, fun t ht => ?_⟩, htrans ▸ List.prefix_append _ _⟩
  · rw [history_append _ q.id htrans]
    rcases (hmem q).mp hq with rfl | ⟨hq, hne⟩
    · have hreplays := h.replays current (Table.find?_mem hfind)
      rw [show (current.moved toStatus detached).id = current.id from rfl, hid, if_pos rfl]
      exact .change (hid ▸ hreplays) hallow
    · rw [if_neg (Ne.symm hne), List.append_nil]
      exact h.replays q hq
  · have hkept : ∀ q ∈ s.payments, ∃ q' ∈ s'.payments, q'.id = q.id ∧ q'.restaurantId = q.restaurantId := by
      intro q hq
      by_cases hqid : q.id = paymentId
      · obtain rfl : q = current := Table.eq_of_key hq (Table.find?_mem hfind) (hqid.trans hid.symm)
        exact ⟨_, (hmem _).mpr (.inl rfl), rfl, rfl⟩
      · exact ⟨q, (hmem q).mpr (.inr ⟨hq, hqid⟩), rfl, rfl⟩
    rw [htrans] at ht
    rcases List.mem_append.mp ht with ht | ht
    · obtain ⟨q, hq, hid, hsame⟩ := h.known t ht
      obtain ⟨q', hq', hid', hsame'⟩ := hkept q hq
      exact ⟨q', hq', hid'.trans hid, hsame'.trans hsame⟩
    · obtain rfl := List.mem_singleton.mp ht
      obtain ⟨q', hq', hid', hsame'⟩ := hkept current (Table.find?_mem hfind)
      exact ⟨q', hq', hid'.trans hid, hsame'.trans hrest⟩

theorem statements_journal : StatementsKeep Journals where
  frame _ _ h := .of_frame h.payments h.transitions
  recordPayment _ _ _ hp := journals_recordPayment hp
  transitionPayment _ _ _ _ _ := journals_transitionPayment
  setReference _ _ reference s r s' hrun := by
    rcases updatePayment_ok hrun with ⟨-, -, rfl⟩ | ⟨old, -, -, -, -, -, -, rfl⟩
    · exact refl_of Journals _
    · exact .of_update (Payment.withReference reference) (fun _ => rfl) (fun _ => rfl) (fun _ => rfl) rfl rfl
  applyToBill _ _ _ s a s' hrun := by
    obtain ⟨-, -, -, -, rfl⟩ := applyToBill_ok hrun
    exact .of_frame rfl rfl
  endBill _ _ _ s u s' hrun := by
    obtain ⟨rfl, -⟩ := updateBill_ok hrun
    exact .of_frame rfl rfl

theorem ledger_journals : LedgerKeeps Journals :=
  statements_journal.ledgerKeeps (fun _ _ h => h) fun _ _ _ _ =>
    statements_journal.confirmClaim fun _ _ => journals_transitionPayment

theorem Edits.journals {billId : Uuid} (h : Edits restaurantId billId s s') : Journals s s' := by
  obtain ⟨bill, items, updated, -, -, hrec⟩ := h
  obtain ⟨-, splits, -, rfl⟩ := recalculateTotals_ok hrec
  exact .of_frame rfl rfl

theorem journals_step (w : World) (op : LedgerOp) : Journals w.db (op.step w).1.db := by
  cases hedit : op.isEdit with
  | false => exact ledger_journals.step w op hedit
  | true =>
    cases op with
    | addItem => exact transact_keeps (atomic_tx _) fun _ _ _ h => (addItem_ok h).journals
    | updateQuantity => exact transact_keeps (atomic_tx _) fun _ _ _ h => (updateQuantity_ok h).journals
    | removeItem => exact transact_keeps (atomic_tx _) fun _ _ _ h => (removeItem_ok h).journals
    | _ => cases hedit

theorem traced_run (w : World) (ops : List LedgerOp) : Traced w.db (ledger.run w ops).db := by
  induction ops generalizing w with
  | nil => exact refl_of Traced _
  | cons op ops ih => exact trans_of Traced (traced_step w op) (ih _)

theorem journals_run (w : World) (ops : List LedgerOp) : Journals w.db (ledger.run w ops).db := by
  induction ops generalizing w with
  | nil => exact refl_of Journals _
  | cons op ops ih => exact trans_of Journals (journals_step w op) (ih _)

/-! ## Runs -/

/-- The statuses behind `SUCCEEDED`. -/
def PaymentStatus.Refunded (status : PaymentStatus) : Prop := status = .partiallyRefunded ∨ status = .refunded

instance : DecidablePred PaymentStatus.Refunded := fun status =>
  inferInstanceAs (Decidable (status = .partiallyRefunded ∨ status = .refunded))

instance : DecidablePred PaymentStatus.Begins := fun status =>
  inferInstanceAs (Decidable (status = .pending ∨ status = .succeeded))

instance (status status' : PaymentStatus) : Decidable (status.Allowed status') :=
  inferInstanceAs (Decidable (status' ∈ status.ALLOWED_TRANSITIONS))

/-- Nothing re-enters `SUCCEEDED`. -/
theorem succeeded_once {rows : List (Option PaymentStatus × PaymentStatus)} {status : PaymentStatus}
    (h : Replays PaymentStatus.Begins PaymentStatus.Allowed rows status) :
    Replays.visits .succeeded rows ≤ 1 ∧
      (Replays.visits .succeeded rows = 1 ↔ status = .succeeded ∨ status.Refunded) := by
  refine h.visits_once ?_ ?_ nofun ?_ ?_
  · intro b hb
    cases b <;> revert hb <;> decide
  · intro a b ha hb
    cases a <;> cases b <;> revert ha hb <;> decide
  · intro a ha
    cases a <;> revert ha <;> decide
  · intro a b hab hb
    cases a <;> cases b <;> revert hab hb <;> decide

theorem history_grows (h : s.transitions <+: s'.transitions) (id : Uuid) : s.history id <+: s'.history id :=
  (h.filter _).map _

/-- In every run of the ledger, whatever it begins with: the history of a payment leads from its first status
to the one that it has, by changes that are allowed, and no history is of another payment; `SUCCEEDED` is
entered once by the payments that are settled or refunded, and never by the others. As the run goes on, rows
are only added, and every payment stays and moves only as the transitions let it. -/
theorem history_replays (db : Db) (h : db.Journaled) (ops : List LedgerOp) :
    let w := ledger.run (.idle db) ops
    w.db.Journaled ∧
      (∀ p ∈ w.db.payments, Replays.visits .succeeded (w.db.history p.id) ≤ 1 ∧
        (Replays.visits .succeeded (w.db.history p.id) = 1 ↔ p.status = .succeeded ∨ p.status.Refunded)) ∧
      ∀ more, w.db.transitions <+: (ledger.run w more).db.transitions ∧
        ∀ p ∈ w.db.payments, ∃ p' ∈ (ledger.run w more).db.payments, p'.id = p.id ∧
          Relation.ReflTransGen PaymentStatus.Allowed p.status p'.status := by
  intro w
  have hw : w.db.Journaled := (journals_run (.idle db) ops).journaled h
  refine ⟨hw, fun p hp => succeeded_once (hw.replays p hp), fun more => ?_⟩
  have hmore := journals_run w more
  refine ⟨hmore.appended, fun p hp => ?_⟩
  obtain ⟨p', hp', hid, -⟩ := (traced_run w more).payments p hp
  have hlater := (hmore.journaled hw).replays p' hp'
  rw [hid] at hlater
  exact ⟨p', hp', hid, hlater.reaches (history_grows hmore.appended p.id) (hw.replays p hp)⟩

theorem evening_replays :
    let w := ledger.run (.idle evening) eveningOps
    w.db.Journaled ∧
      (∀ p ∈ w.db.payments, Replays.visits .succeeded (w.db.history p.id) ≤ 1 ∧
        (Replays.visits .succeeded (w.db.history p.id) = 1 ↔ p.status = .succeeded ∨ p.status.Refunded)) ∧
      ∀ more, w.db.transitions <+: (ledger.run w more).db.transitions ∧
        ∀ p ∈ w.db.payments, ∃ p' ∈ (ledger.run w more).db.payments, p'.id = p.id ∧
          Relation.ReflTransGen PaymentStatus.Allowed p.status p'.status :=
  history_replays evening ⟨fun _ hp => absurd hp List.not_mem_nil, fun _ ht => absurd ht List.not_mem_nil⟩
    eveningOps

end Splite
