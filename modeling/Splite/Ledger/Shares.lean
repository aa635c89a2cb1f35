import Splite.Ledger.Splits
import Splite.Ledger.Steady

/-!
# What is paid on the shares of a split

A payment that settles credits its bill and its share in one transaction, and what the share counts
is a second cache of the ledger (`migrations/023_split_share_drift_view.sql`).

* `Db.Shared`: the shares agree with the payments that cite them, and with their splits.
* `Db.SharedBut.of_shifts`: a payment that moves, and its share with it, keep it.
* `ledger_attributed`, `Edits.attributed`, `createSplit_shared`: so does every transaction.
* `shares_agree`: it holds after every run; a payment that loses its share loses nothing else.
-/

namespace Splite

/-- What a payment counts for on a share. -/
def Payment.credit (p : Payment) (shareId : Uuid) : Int :=
  if p.splitParticipantId = some shareId ∧ p.status.counted then p.amountVes else 0

/-- `COALESCE(SUM(p.amount_ves), 0)` of `bill_split_share_drift`. -/
def Db.credited (s : Db) (shareId : Uuid) : Int := s.payments.total (·.credit shareId)

/-- A payment that counts on a share belongs to the bill that the share's split is of. -/
def Db.Owns (s : Db) (billId shareId : Uuid) : Prop :=
  ∃ share ∈ s.shares, share.id = shareId ∧
    ∃ split ∈ s.splits, split.id = share.splitId ∧ split.billId = billId

/-- The shares agree with the payments and with the splits, but for the sum of one split that is
being written. -/
structure Db.SharedBut (unsummed : Option Uuid) (s : Db) : Prop where
  checked : ∀ share ∈ s.shares, share.violated = none
  paid : ∀ share ∈ s.shares, share.amountPaidVes = s.credited share.id
  owner : ∀ p ∈ s.payments, p.status.counted → ∀ id ∈ p.splitParticipantId, s.Owns p.billId id
  sums : ∀ split ∈ s.splits, split.status = .active → split.id ∉ unsummed →
    s.shareTotal split.id = split.basisVes

def Db.Shared (s : Db) : Prop := s.SharedBut none

section Shared

variable {s s' : Db} {unsummed : Option Uuid} {restaurantId billId paymentId : Uuid}

theorem credit_of_not_counted {p : Payment} (h : p.status.counted = false) (k : Uuid) :
    p.credit k = 0 := by
  simp [Payment.credit, h]

theorem credit_of_uncited {p : Payment} (h : p.splitParticipantId = none) (k : Uuid) :
    p.credit k = 0 := by
  simp [Payment.credit, h]

theorem credit_of_cited {p : Payment} {id : Uuid} (h : p.splitParticipantId = some id)
    (hcounted : p.status.counted) (k : Uuid) : p.credit k = if k = id then p.amountVes else 0 := by
  simp [Payment.credit, h, hcounted, eq_comm]

theorem credited_update (f : Payment → Payment) (hf : ∀ p, (f p).id = p.id) {old : Payment}
    (hold : s.payments.find? paymentId = some old)
    (h : s'.payments = s.payments.update paymentId f hf) (k : Uuid) :
    s'.credited k = s.credited k + ((f old).credit k - old.credit k) := by
  unfold Db.credited
  rw [h]
  exact Table.total_update hold

theorem SplitParticipant.paid_le_of_checked {share : SplitParticipant}
    (h : share.violated = none) : 0 ≤ share.amountPaidVes ∧ share.amountPaidVes ≤ share.amountVes := by
  grind [SplitParticipant.violated]

theorem Db.SharedBut.of_frame (h : s.SharedBut unsummed) (hpayments : s'.payments = s.payments)
    (hsplits : s'.splits = s.splits) (hshares : s'.shares = s.shares) : s'.SharedBut unsummed := by
  refine ⟨?_, ?_, ?_, ?_⟩
  · rw [hshares]
    exact h.checked
  · unfold Db.credited
    rw [hshares, hpayments]
    exact h.paid
  · unfold Db.Owns
    rw [hpayments, hshares, hsplits]
    exact h.owner
  · unfold Db.shareTotal
    rw [hsplits, hshares]
    exact h.sums

/-- Some splits lose their standing. -/
theorem Db.SharedBut.of_restatus (h : s.SharedBut unsummed) {q : BillSplit → Bool}
    (status : SplitStatus) (hstatus : status ≠ .active)
    (hsplits : s'.splits = s.splits.updateWhere q (fun r => { r with status }) fun _ => rfl)
    (hpayments : s'.payments = s.payments) (hshares : s'.shares = s.shares) :
    s'.SharedBut unsummed := by
  refine ⟨?_, ?_, fun p hp hcounted id hid => ?_, fun split' hsplit' hlive hne => ?_⟩
  · rw [hshares]
    exact h.checked
  · unfold Db.credited
    rw [hshares, hpayments]
    exact h.paid
  · rw [hpayments] at hp
    obtain ⟨share, hshare, hsid, split, hsplit, hspid, hbill⟩ := h.owner p hp hcounted id hid
    refine ⟨share, hshares ▸ hshare, hsid, _, hsplits ▸ Table.mem_updateWhere.mpr ⟨split, hsplit, rfl⟩,
      ?_, ?_⟩
    · split <;> exact hspid
    · split <;> exact hbill
  · unfold Db.shareTotal
    rw [hshares]
    rw [hsplits] at hsplit'
    obtain ⟨split, hsplit, rfl⟩ := Table.mem_updateWhere.mp hsplit'
    by_cases hq : q split
    · rw [if_pos hq] at hlive
      exact absurd hlive hstatus
    · rw [if_neg hq] at hlive hne ⊢
      exact h.sums split hsplit hlive hne

/-- The same money counts on the same shares. -/
theorem Db.SharedBut.of_payments (h : s.SharedBut unsummed)
    (hcredited : ∀ k, s'.credited k = s.credited k)
    (howner : ∀ q ∈ s'.payments, q.status.counted → ∀ id ∈ q.splitParticipantId,
      ∃ q₀ ∈ s.payments, q₀.status.counted ∧ q₀.splitParticipantId = some id ∧ q₀.billId = q.billId)
    (hsplits : s'.splits = s.splits) (hshares : s'.shares = s.shares) : s'.SharedBut unsummed := by
  refine ⟨?_, fun share hshare => ?_, fun q hq hcounted id hid => ?_, ?_⟩
  · rw [hshares]
    exact h.checked
  · rw [hcredited]
    exact h.paid share (hshares ▸ hshare)
  · obtain ⟨q₀, hq₀, hcounted₀, hid₀, hbill⟩ := howner q hq hcounted id hid
    have hown := h.owner q₀ hq₀ hcounted₀ id hid₀
    unfold Db.Owns at hown ⊢
    rw [hsplits, hshares, ← hbill]
    exact hown
  · unfold Db.shareTotal
    rw [hsplits, hshares]
    exact h.sums

/-- A share is advanced by an amount that a payment of its bill now counts for. -/
theorem Db.SharedBut.of_advance (h : s.SharedBut unsummed) {id : Uuid} {amount : Int}
    {share : SplitParticipant} {split : BillSplit} (hshare : s.shares.find? id = some share)
    (hsplit : s.splits.find? share.splitId = some split)
    (hchecked : (share.advanced amount).violated = none)
    (hcredited : ∀ k, s'.credited k = s.credited k + if k = id then amount else 0)
    (howner : ∀ q ∈ s'.payments, q.status.counted → ∀ k ∈ q.splitParticipantId,
      (k = id ∧ q.billId = split.billId) ∨
      ∃ q₀ ∈ s.payments, q₀.status.counted ∧ q₀.splitParticipantId = some k ∧ q₀.billId = q.billId)
    (hsplits : s'.splits = s.splits)
    (hshares : s'.shares = s.shares.update id (SplitParticipant.advanced amount) fun _ => rfl) :
    s'.SharedBut unsummed := by
  have hid : share.id = id := Table.find?_key hshare
  have hrows : ∀ r, r ∈ s'.shares ↔ r = share.advanced amount ∨ (r ∈ s.shares ∧ r.id ≠ id) := by
    intro r
    rw [hshares]
    exact Table.mem_update_of_find (SplitParticipant.advanced amount) (fun _ => rfl) hshare
  have hkeep : ∀ r ∈ s.shares, ∃ r' ∈ s'.shares, r'.id = r.id ∧ r'.splitId = r.splitId := by
    intro r hr
    by_cases hk : r.id = id
    · obtain rfl : r = share := Table.eq_of_key hr (Table.find?_mem hshare) (hk.trans hid.symm)
      exact ⟨_, (hrows _).mpr (.inl rfl), rfl, rfl⟩
    · exact ⟨r, (hrows r).mpr (.inr ⟨hr, hk⟩), rfl, rfl⟩
  refine ⟨fun r hr => ?_, fun r hr => ?_, fun q hq hcounted k hk => ?_, fun sp hsp hlive hne => ?_⟩
  · rcases (hrows r).mp hr with rfl | ⟨hr, -⟩
    · exact hchecked
    · exact h.checked r hr
  · rw [hcredited]
    rcases (hrows r).mp hr with rfl | ⟨hr, hne⟩
    · have hpaid := h.paid share (Table.find?_mem hshare)
      rw [if_pos (show (share.advanced amount).id = id from hid)]
      show share.amountPaidVes + amount = s.credited share.id + amount
      rw [hpaid]
    · rw [if_neg hne, add_zero]
      exact h.paid r hr
  · unfold Db.Owns
    rw [hsplits]
    rcases howner q hq hcounted k hk with ⟨rfl, hbill⟩ | ⟨q₀, hq₀, hcounted₀, hid₀, hbill⟩
    · exact ⟨_, (hrows _).mpr (.inl rfl), hid, split, Table.find?_mem hsplit,
        Table.find?_key hsplit, hbill.symm⟩
    · obtain ⟨r, hr, hrid, sp, hsp, hspid, hspbill⟩ := h.owner q₀ hq₀ hcounted₀ k hid₀
      obtain ⟨r', hr', hrid', hrsplit⟩ := hkeep r hr
      exact ⟨r', hr', hrid'.trans hrid, sp, hsp, hspid.trans hrsplit.symm, hspbill.trans hbill⟩
  · have htotal : s'.shareTotal sp.id = s.shareTotal sp.id := by
      unfold Db.shareTotal
      rw [hshares]
      exact Table.total_update_same _ _ fun _ => rfl
    rw [hsplits] at hsp
    rw [htotal]
    exact h.sums sp hsp hlive hne

/-! ### Payments and their shares -/

/-- Where the money of a payment does not move, it counts as it did before. -/
theorem counted_of_allowed {old new : PaymentStatus} (h : new ∈ old.ALLOWED_TRANSITIONS)
    (hnew : new ≠ .refunded) (hapart : new ∉ SETTLED_STATUSES) : new.counted = old.counted := by
  revert h hnew hapart
  cases old <;> cases new <;> decide

theorem not_counted_of_allowed {old new : PaymentStatus} (h : new ∈ old.ALLOWED_TRANSITIONS)
    (hsettled : new ∈ SETTLED_STATUSES) : old.counted = false := by
  revert h hsettled
  cases old <;> cases new <;> decide

theorem counted_of_settled {status : PaymentStatus} (h : status ∈ SETTLED_STATUSES) :
    status.counted := by
  obtain rfl := List.mem_singleton.mp h
  rfl

/-- One payment moves from the standing `before` to `toStatus`, and its share with it. -/
theorem Db.SharedBut.of_shifts (h : s.SharedBut unsummed) {p : Payment} (before : PaymentStatus)
    {toStatus : PaymentStatus} {mode : OnShareRefusal} {detached : Bool}
    (hshifts : Shifts s.shares s.splits p toStatus mode detached s'.shares)
    (hsettled : toStatus ∈ SETTLED_STATUSES → before.counted = false)
    (hapart : toStatus ∉ SETTLED_STATUSES → toStatus.counted = before.counted)
    (hbefore : before.counted → p ∈ s.payments ∧ p.status = before)
    (hrows : ∀ q ∈ s'.payments, q = p.moved toStatus detached ∨ q ∈ s.payments)
    (hcredited : ∀ k, s'.credited k = s.credited k +
      ((p.moved toStatus detached).credit k - { p with status := before }.credit k))
    (hsplits : s'.splits = s.splits) : s'.SharedBut unsummed := by
  generalize hshares : s'.shares = shares at hshifts
  cases hshifts with
  | apart _ hnone =>
    by_cases hto : toStatus ∈ SETTLED_STATUSES
    · have huncited : (p.moved toStatus false).splitParticipantId = none := hnone hto
      refine h.of_payments (fun k => ?_) (fun q hq hcounted id hid => ?_) hsplits hshares
      · rw [hcredited, credit_of_uncited huncited, credit_of_not_counted (hsettled hto), sub_zero,
          add_zero]
      · rcases hrows q hq with rfl | hq
        · rw [huncited] at hid
          cases hid
        · exact ⟨q, hq, hcounted, hid, rfl⟩
    · have hsame : ∀ k, (p.moved toStatus false).credit k = { p with status := before }.credit k := by
        intro k
        show (if p.splitParticipantId = some k ∧ toStatus.counted then p.amountVes else 0) = _
        rw [hapart hto]
        rfl
      refine h.of_payments (fun k => ?_) (fun q hq hcounted id hid => ?_) hsplits hshares
      · rw [hcredited, hsame, sub_self, add_zero]
      · rcases hrows q hq with rfl | hq
        · have hb : before.counted := by
            rw [← hapart hto]
            exact hcounted
          obtain ⟨hp, hstatus⟩ := hbefore hb
          exact ⟨p, hp, hstatus ▸ hb, hid, rfl⟩
        · exact ⟨q, hq, hcounted, hid, rfl⟩
  | advanced _ hid hto hshare hsplit hbill _ hchecked =>
    refine h.of_advance hshare hsplit hchecked (fun k => ?_) (fun q hq hcounted k hk => ?_) hsplits
      hshares
    · have hzero := credit_of_not_counted (p := { p with status := before }) (hsettled hto) k
      rw [hcredited, hzero, sub_zero]
      exact congrArg _ (credit_of_cited (p := p.moved toStatus false) hid (counted_of_settled hto) k)
    · rcases hrows q hq with rfl | hq
      · have hkid : p.splitParticipantId = some k := hk
        rw [hid] at hkid
        exact .inl ⟨(Option.some.inj hkid).symm, hbill.symm⟩
      · exact .inr ⟨q, hq, hcounted, hk, rfl⟩
  | detached hto =>
    refine h.of_payments (fun k => ?_) (fun q hq hcounted id hid => ?_) hsplits hshares
    · have hzero := credit_of_not_counted (p := { p with status := before }) (hsettled hto) k
      rw [hcredited, hzero, sub_zero]
      exact (congrArg _ (credit_of_uncited (p := p.moved toStatus true) rfl k)).trans (add_zero _)
    · rcases hrows q hq with rfl | hq
      · cases hid
      · exact ⟨q, hq, hcounted, hid, rfl⟩

theorem shared_transitionPayment {toStatus : PaymentStatus} {reason : Option String}
    {mode : OnShareRefusal} (hto : toStatus ≠ .refunded) :
    Tx.Keeps (fun s s' : Db => s.SharedBut unsummed → s'.SharedBut unsummed)
      (transitionPayment restaurantId paymentId toStatus reason mode) := by
  intro s m s' hrun h
  obtain ⟨current, hcur, ⟨-, rfl⟩ | ⟨hallow, detached, transitions, shares, hshifts, rfl⟩⟩ :=
    transitionPayment_shifts hrun
  · exact h
  · obtain ⟨hfind, -⟩ := payment?_eq_some.mp hcur
    refine h.of_shifts current.status hshifts (not_counted_of_allowed hallow)
      (counted_of_allowed hallow hto) (fun _ => ⟨Table.find?_mem hfind, rfl⟩) (fun q hq => ?_) (fun k => ?_) rfl
    · exact ((Table.mem_update_of_find (Payment.moved toStatus detached) (fun _ => rfl)
        hfind).mp hq).imp_right And.left
    · exact credited_update (Payment.moved toStatus detached) (fun _ => rfl) hfind rfl k

theorem shared_recordPayment {now : Time} {p : NewPayment}
    (hstatus : p.status = .pending ∨ p.status = .succeeded) :
    Tx.Keeps (fun s s' : Db => s.SharedBut unsummed → s'.SharedBut unsummed)
      (recordPayment paymentId now p) := by
  intro s row s' hrun h
  obtain ⟨hrow, -, -, payments, transitions, shares, hins, hshifts, rfl⟩ := recordPayment_shifts hrun
  have hmoved : row.moved p.status false = row := by
    rw [← hrow.status]
    rfl
  refine h.of_shifts .pending hshifts (fun _ => rfl) (fun hnot => ?_) nofun
    (fun q hq => ?_) (fun k => ?_) rfl
  · rcases hstatus with hp | hp
    · rw [hp]
    · rw [hp] at hnot
      exact absurd (List.mem_singleton.mpr rfl) hnot
  · rw [hmoved]
    exact ((Table.mem_insert? hins).mp hq).symm
  · rw [hmoved, credit_of_not_counted (p := { row with status := .pending }) rfl, sub_zero]
    exact Table.total_insert hins

theorem shared_setReference {reference : Option String} :
    Tx.Keeps (fun s s' : Db => s.SharedBut unsummed → s'.SharedBut unsummed)
      (setReference restaurantId paymentId reference) := by
  intro s r s' hrun h
  rcases updatePayment_ok hrun with ⟨-, -, rfl⟩ | ⟨old, hold, -, -, -, -, -, rfl⟩
  · exact h
  obtain ⟨hfind, -⟩ := payment?_eq_some.mp hold
  refine h.of_payments (fun k => ?_) (fun q hq hcounted id hid => ?_) rfl rfl
  · refine (credited_update (Payment.withReference reference) (fun _ => rfl) hfind rfl k).trans ?_
    exact (congrArg _ (sub_self _)).trans (add_zero _)
  · rcases (Table.mem_update_of_find (Payment.withReference reference) (fun _ => rfl) hfind).mp hq
      with rfl | ⟨hq, -⟩
    · exact ⟨old, Table.find?_mem hfind, hcounted, hid, rfl⟩
    · exact ⟨q, hq, hcounted, hid, rfl⟩

/-! ### Edits -/

/-- An edit that changes the total leaves no split active; no share moves. -/
theorem Edits.sharedBut (hedit : Edits restaurantId billId s s') (h : s.SharedBut unsummed) :
    s'.SharedBut unsummed := by
  obtain ⟨bill, items, updated, -, -, hrec⟩ := hedit
  obtain ⟨-, splits, hsplits, rfl⟩ := recalculateTotals_ok hrec
  by_cases hne : updated.totalDueVes ≠ bill.totalDueVes
  · rw [if_pos hne] at hsplits
    exact h.of_restatus .stale (by decide) hsplits rfl rfl
  · rw [if_neg hne] at hsplits
    exact h.of_frame rfl hsplits rfl

/-! ### Splits -/

theorem discardUnpaidSplit_shared {u : Unit} {splitId : Uuid}
    (hrun : (discardUnpaidSplit restaurantId billId splitId).run s = .ok u s')
    (h : s.SharedBut unsummed) : s'.SharedBut unsummed := by
  obtain ⟨-, -, rfl⟩ := discardUnpaidSplit_ok hrun
  exact h.of_restatus .void (by decide) rfl rfl rfl

theorem discardLive_shared {r : Option Uuid}
    (hrun : (discardLive restaurantId billId).run s = .ok r s') (h : s.SharedBut unsummed) :
    s'.SharedBut unsummed := by
  unfold discardLive at hrun
  rw [Tx.bind_of_ok Tx.run_get] at hrun
  split at hrun
  · simp only [Tx.bind_ok, Tx.pure_ok] at hrun
    obtain ⟨_, _, hdiscard, -, rfl⟩ := hrun
    exact discardUnpaidSplit_shared hdiscard h
  · obtain ⟨-, rfl⟩ := Tx.pure_ok.mp hrun
    exact h

/-- The split that is inserted has no shares yet, so nothing is said of its sum. -/
theorem insertSplit_shared {row : BillSplit} {u : Unit}
    (hrun : (insertSplit row).run s = .ok u s') (h : s.Shared) : s'.SharedBut (some row.id) := by
  obtain ⟨splits, hins, rfl, -⟩ := insertSplit_ok hrun
  have hrows : ∀ split, split ∈ splits ↔ split ∈ s.splits ∨ split = row := fun split =>
    Table.mem_insert? hins
  refine ⟨h.checked, h.paid, fun p hp hcounted id hid => ?_, fun split hsplit hlive hne => ?_⟩
  · obtain ⟨share, hshare, hsid, split, hsplit, hrest⟩ := h.owner p hp hcounted id hid
    exact ⟨share, hshare, hsid, split, (hrows split).mpr (.inl hsplit), hrest⟩
  · rcases (hrows split).mp hsplit with hsplit | rfl
    · exact h.sums split hsplit hlive nofun
    · exact absurd rfl hne

/-- A share that has just been written has no payment yet, since no payment counts on a share that
is not there. -/
theorem insertShare_shared {row : SplitParticipant} {u : Unit} (hnew : row.amountPaidVes = 0)
    (hrun : (insertShare row).run s = .ok u s') (h : s.SharedBut (some row.splitId)) :
    s'.SharedBut (some row.splitId) := by
  obtain ⟨shares, hins, rfl, hchecked, -⟩ := insertShare_ok hrun
  have hrows : ∀ share, share ∈ shares ↔ share ∈ s.shares ∨ share = row := fun share =>
    Table.mem_insert? hins
  have hfresh : ∀ share ∈ s.shares, share.id ≠ row.id := (Table.insert?_eq_some.mp hins).1
  refine ⟨fun share hshare => ?_, fun share hshare => ?_, fun p hp hcounted id hid => ?_,
    fun split hsplit hlive hne => ?_⟩
  · rcases (hrows share).mp hshare with hshare | rfl
    · exact h.checked share hshare
    · exact hchecked
  · rcases (hrows share).mp hshare with hshare | rfl
    · exact h.paid share hshare
    · have hnone : s.credited share.id = s.payments.total fun _ => 0 :=
        Table.total_congr fun p hp => by
          unfold Payment.credit
          rw [if_neg]
          rintro ⟨hid, hcounted⟩
          obtain ⟨other, hother, hoid, -⟩ := h.owner p hp hcounted share.id hid
          exact hfresh other hother hoid
      show share.amountPaidVes = s.credited share.id
      rw [hnew, hnone]
      simp [Table.total]
  · obtain ⟨share, hshare, hrest⟩ := h.owner p hp hcounted id hid
    exact ⟨share, (hrows share).mpr (.inl hshare), hrest⟩
  · have htotal : shares.total (fun r => if r.splitId = split.id then r.amountVes else 0) =
        s.shareTotal split.id + if row.splitId = split.id then row.amountVes else 0 :=
      Table.total_insert hins
    have hother : row.splitId ≠ split.id := fun heq => hne (by rw [heq]; rfl)
    rw [if_neg hother, add_zero] at htotal
    exact htotal.trans (h.sums split hsplit hlive hne)

theorem insertShares_shared {splitId : Uuid} {newId : Nat → Uuid}
    (allocations : List SplitAllocation) (i : Nat) :
    Tx.Keeps (fun s s' : Db => s.SharedBut (some splitId) → s'.SharedBut (some splitId))
      (insertShares restaurantId splitId newId i allocations) := by
  induction allocations generalizing i with
  | nil =>
    intro s u s' hrun h
    obtain ⟨-, rfl⟩ := Tx.pure_ok.mp hrun
    exact h
  | cons share allocations ih =>
    intro s u s' hrun h
    obtain ⟨_, s₁, hins, hrest⟩ := Tx.bind_ok.mp hrun
    exact ih (i + 1) s₁ u s' hrest (insertShare_shared rfl hins h)

theorem createSplit_shared {splitId : Uuid} {newId : Nat → Uuid} {bill : Bill}
    {items : List BillItem} {body : SplitBody} {r : SplitCreated}
    (hrun : (createSplit splitId newId restaurantId bill items body).run s = .ok r s')
    (h : s.Shared) : s'.Shared := by
  obtain ⟨-, allocation, -, hsome, hstore⟩ := createSplit_ok hrun
  unfold storeSplit at hstore
  simp only [Tx.withTransaction_ok, Tx.bind_ok, Tx.pure_ok] at hstore
  obtain ⟨superseded, s₁, hdiscard, _, s₂, hsplit, _, s₃, hshares, _, s₄, hclaims, _, s₅, hsum, -,
    rfl⟩ := hstore
  have h₁ : s₁.Shared := discardLive_shared hdiscard h
  have h₂ := insertSplit_shared hsplit h₁
  have h₃ := insertShares_shared _ _ _ _ _ hshares h₂
  obtain rfl := insertClaims_ok hclaims
  obtain ⟨rfl, hbasis⟩ := assertSharesSum_ok hsome hsum
  refine ⟨h₃.checked, h₃.paid, h₃.owner, fun split hsplit hlive _ => ?_⟩
  by_cases hid : split.id = splitId
  · rw [hid]
    exact hbasis split hsplit hid hlive
  · exact h₃.sums split hsplit hlive fun hmem => hid (Option.some.inj hmem).symm

/-! ### The whole ledger -/

/-- The shares stay in agreement, and every payment names the share that it named. -/
structure ShareSafe (s s' : Db) : Prop where
  shared : s.Shared → s'.Shared
  cited : ∀ p ∈ s.payments, ∃ p' ∈ s'.payments, p'.id = p.id ∧
    p'.splitParticipantId = p.splitParticipantId

instance : Std.Refl ShareSafe := ⟨fun _ => ⟨fun h => h, fun p hp => ⟨p, hp, rfl, rfl⟩⟩⟩

instance : IsTrans Db ShareSafe := ⟨fun s s' s'' h h' => by
  refine ⟨fun hs => h'.shared (h.shared hs), fun p hp => ?_⟩
  obtain ⟨p', hp', hid, hcited⟩ := h.cited p hp
  obtain ⟨p'', hp'', hid', hcited'⟩ := h'.cited p' hp'
  exact ⟨p'', hp'', hid'.trans hid, hcited'.trans hcited⟩⟩

theorem ShareSafe.of_payments (hshared : s.Shared → s'.Shared) (hpayments : s'.payments = s.payments) :
    ShareSafe s s' :=
  ⟨hshared, fun p hp => ⟨p, hpayments ▸ hp, rfl, rfl⟩⟩

/-- One payment changes, but not the share that it names. -/
theorem ShareSafe.of_update (hshared : s.Shared → s'.Shared) (f : Payment → Payment)
    (hf : ∀ p, (f p).id = p.id) (hcited : ∀ p, (f p).splitParticipantId = p.splitParticipantId)
    (hpayments : s'.payments = s.payments.update paymentId f hf) : ShareSafe s s' := by
  refine ⟨hshared, fun p hp => ⟨_, hpayments ▸ Table.mem_update.mpr ⟨p, hp, rfl⟩, ?_, ?_⟩⟩
  · split
    · exact hf p
    · rfl
  · split
    · exact hcited p
    · rfl

theorem statements_shareSafe : StatementsKeep ShareSafe where
  frame _ _ h := .of_payments (fun hs => hs.of_frame h.payments h.splits h.shares) h.payments
  recordPayment _ _ _ hstatus s row s' hrun := by
    refine ⟨shared_recordPayment hstatus s row s' hrun, fun p hp => ?_⟩
    obtain ⟨-, -, payments, _, _, hins, rfl⟩ := recordPayment_ok hrun
    exact ⟨p, (Table.mem_insert? hins).mpr (.inl hp), rfl, rfl⟩
  transitionPayment _ _ toStatus _ hto s m s' hrun := by
    have hshared : s.Shared → s'.Shared :=
      shared_transitionPayment (by rintro rfl; revert hto; decide) s m s' hrun
    obtain ⟨_, -, ⟨-, rfl⟩ | ⟨-, detached, _, _, hshifts, rfl⟩⟩ := transitionPayment_shifts hrun
    · exact refl_of ShareSafe _
    · cases hshifts with
      | apart | advanced =>
        exact .of_update hshared (Payment.moved toStatus false) (fun _ => rfl) (fun _ => rfl) rfl
  setReference _ _ reference s r s' hrun := by
    have hshared : s.Shared → s'.Shared := shared_setReference s r s' hrun
    rcases updatePayment_ok hrun with ⟨-, -, rfl⟩ | ⟨_, -, -, -, -, -, -, rfl⟩
    · exact refl_of ShareSafe _
    · exact .of_update hshared (Payment.withReference reference) (fun _ => rfl) (fun _ => rfl) rfl
  applyToBill _ _ _ s a s' hrun := by
    obtain ⟨-, -, -, -, rfl⟩ := applyToBill_ok hrun
    exact .of_payments (fun h => h.of_frame rfl rfl rfl) rfl
  endBill _ _ _ s u s' hrun := by
    obtain ⟨rfl, -⟩ := updateBill_ok hrun
    exact .of_payments (fun h => h.of_frame rfl rfl rfl) rfl

/-- A payment settles without its share. The bill takes the whole amount all the same. -/
structure Detaches (s s' : Db) (p p' : Payment) : Prop where
  unsettled : p.status.counted = false
  settled : p' = { p with status := .succeeded, splitParticipantId := none }
  shares : s'.shares = s.shares
  bill : ∃ b status, s.bills.find? p.billId = some b ∧ s'.bills = s.bills.update p.billId
    (Bill.applied (b.amountPaidVes + p.amountVes) status) fun _ => rfl

/-- The shares stay in agreement, and a payment that no longer names its share has settled. -/
structure Attributed (s s' : Db) : Prop where
  shared : s.Shared → s'.Shared
  detached : ∀ p ∈ s.payments, ∀ p' ∈ s'.payments, p'.id = p.id →
    p'.splitParticipantId ≠ p.splitParticipantId → Detaches s s' p p'

theorem ShareSafe.attributed (h : ShareSafe s s') : Attributed s s' := by
  refine ⟨h.shared, fun p hp p' hp' hid hne => ?_⟩
  obtain ⟨p'', hp'', hid', hcited⟩ := h.cited p hp
  obtain rfl : p'' = p' := Table.eq_of_key hp'' hp' (hid'.trans hid.symm)
  exact absurd hcited hne

instance : Std.Refl Attributed := ⟨fun s => (refl_of ShareSafe s).attributed⟩

/-- The money of a claim that is confirmed is on the bill, whether its share takes it or not. -/
theorem attributed_confirmClaim {claimId : Uuid} {via : ConfirmedVia} {movement : Option Uuid} :
    Tx.Keeps Attributed (confirmClaim restaurantId claimId via movement) := by
  intro s r s' hrun
  unfold confirmClaim at hrun
  simp only [Tx.withTransaction_ok, Tx.bind_ok, Tx.pure_ok] at hrun
  obtain ⟨claim, _, hlock, applied, s₁, happly, moved, s₂, hmove, _, s₃, huse, -, rfl⟩ := hrun
  obtain ⟨hfind, rfl, hpending, -, rfl⟩ := lockPendingClaim_ok hlock
  obtain ⟨hbill, -, -, -, rfl⟩ := applyToBill_ok happly
  obtain ⟨movements, rfl⟩ := useBackingMovement_ok huse
  refine ⟨fun h => ?_, fun p hp p' hp' hid hne => ?_⟩
  · have hmoved : s₂.Shared :=
      shared_transitionPayment (by decide) _ _ _ hmove (Db.SharedBut.of_frame h rfl rfl rfl)
    exact hmoved.of_frame rfl rfl rfl
  · obtain ⟨current, hcur, ⟨hsame, -⟩ | ⟨-, detached, _, shares, hshifts, rfl⟩⟩ :=
      transitionPayment_shifts hmove
    · obtain rfl : claim = current := by
        have hcur' := (payment?_eq_some.mp hcur).1
        rw [hfind] at hcur'
        exact Option.some.inj hcur'
      rw [hpending] at hsame
      cases hsame
    obtain rfl : claim = current := by
      have hcur' := (payment?_eq_some.mp hcur).1
      rw [hfind] at hcur'
      exact Option.some.inj hcur'
    rcases (Table.mem_update_of_find (Payment.moved .succeeded detached) (fun _ => rfl) hfind).mp hp'
      with rfl | ⟨hp', -⟩
    · obtain rfl : p = claim := Table.eq_of_key hp (Table.find?_mem hfind) hid.symm
      cases hshifts with
      | apart | advanced => exact absurd rfl hne
      | detached =>
        refine ⟨by rw [hpending]; rfl, rfl, rfl, applied.bill, _, ?_, rfl⟩
        exact (bill?_eq_some.mp hbill).1
    · exact absurd (congrArg _ (Table.eq_of_key hp' hp hid)) hne

theorem ledger_attributed : LedgerKeeps Attributed :=
  statements_shareSafe.ledgerKeeps (fun _ _ h => h.attributed) fun _ _ _ _ => attributed_confirmClaim

theorem Edits.attributed (h : Edits restaurantId billId s s') : Attributed s s' := by
  have hshared : s.Shared → s'.Shared := h.sharedBut
  obtain ⟨bill, items, updated, -, -, hrec⟩ := h
  obtain ⟨-, splits, -, rfl⟩ := recalculateTotals_ok hrec
  exact (ShareSafe.of_payments hshared rfl).attributed

end Shared

/-! ## Runs -/

inductive ShareOp where
  | ledger (op : LedgerOp)
  /-- The bill and its items are what the route has read, at whatever time before. -/
  | createSplit (splitId : Uuid) (newId : Nat → Uuid) (restaurantId : Uuid) (bill : Bill)
      (items : List BillItem) (body : SplitBody)
  | voidSplit (restaurantId billId splitId : Uuid)

/-- One step, with the error that its operation throws. -/
def ShareOp.step (w : World) : ShareOp → World × List Err
  | .ledger op => op.step w
  | .createSplit splitId newId restaurantId bill items body =>
    w.transact (Splite.createSplit splitId newId restaurantId bill items body)
  | .voidSplit restaurantId billId splitId =>
    w.transact (Splite.voidSplit restaurantId billId splitId)

/-- The ledger, and the splits that are agreed on its bills. -/
def shareLedger : Machine World ShareOp Err := ⟨ShareOp.step⟩

section Runs

variable {w : World}

theorem attributed_edit {α : Type} {x : Tx Err Db α} {restaurantId billId : Uuid}
    (hatomic : Tx.Atomic x) (hx : ∀ a s s', x.run s = .ok a s' → Edits restaurantId billId s s') :
    Attributed w.db (w.transact x).1.db :=
  transact_keeps hatomic fun s a s' hrun => (hx a s s' hrun).attributed

/-- Every step of the ledger: an edit, or one of the other transactions. -/
theorem attributed_ledger (op : LedgerOp) : Attributed w.db (op.step w).1.db := by
  cases hedit : op.isEdit with
  | false => exact ledger_attributed.step w op hedit
  | true =>
    cases op with
    | addItem => exact attributed_edit (atomic_tx _) fun _ _ _ => addItem_ok
    | updateQuantity => exact attributed_edit (atomic_tx _) fun _ _ _ => updateQuantity_ok
    | removeItem => exact attributed_edit (atomic_tx _) fun _ _ _ => removeItem_ok
    | _ => cases hedit

/-- Cache and ledger of the bills stay sound, and the shares stay in agreement. -/
theorem shareLedger_step (h : w.Sound) (op : ShareOp) :
    (shareLedger.step w op).1.Sound ∧ Attributed w.db (shareLedger.step w op).1.db := by
  cases op with
  | ledger op => exact ⟨(h.fair_step op).sound, attributed_ledger op⟩
  | createSplit splitId newId restaurantId bill items body =>
    have hatomic := atomic_createSplit splitId newId restaurantId bill items body
    refine ⟨(h.fair_transact hatomic fun r s' hrun => ?_).sound,
      transact_keeps hatomic fun s r s' hrun => ?_⟩
    · obtain ⟨-, _, -, -, hstore⟩ := createSplit_ok hrun
      obtain ⟨splits, shares, rfl⟩ := storeSplit_frame hstore
      exact .of_frame rfl rfl rfl
    · have hshared := createSplit_shared hrun
      obtain ⟨-, _, -, -, hstore⟩ := createSplit_ok hrun
      obtain ⟨splits, shares, rfl⟩ := storeSplit_frame hstore
      exact (ShareSafe.of_payments hshared rfl).attributed
  | voidSplit restaurantId billId splitId =>
    have hatomic : Tx.Atomic (voidSplit restaurantId billId splitId) := atomic_tx _
    refine ⟨(h.fair_transact hatomic fun r s' hrun => ?_).sound,
      transact_keeps hatomic fun s r s' hrun => ?_⟩
    · obtain ⟨-, -, rfl⟩ := discardUnpaidSplit_ok (voidSplit_ok hrun).1
      exact .of_frame rfl rfl rfl
    · have hshared : s.Shared → s'.Shared := discardUnpaidSplit_shared (voidSplit_ok hrun).1
      obtain ⟨-, -, rfl⟩ := discardUnpaidSplit_ok (voidSplit_ok hrun).1
      exact (ShareSafe.of_payments hshared rfl).attributed

theorem run_shared (h : w.Sound) (hshared : w.db.Shared) (ops : List ShareOp) :
    (shareLedger.run w ops).Sound ∧ (shareLedger.run w ops).db.Shared := by
  induction ops generalizing w with
  | nil => exact ⟨h, hshared⟩
  | cons op ops ih =>
    obtain ⟨hsound, hattr⟩ := shareLedger_step h op
    exact ih hsound (hattr.shared hshared)

end Runs

/-- Two diners on equal shares. -/
def evenRequest : SplitRequest where
  mode := .equal
  participants := [⟨"ana", some "Ana", none⟩, ⟨"luis", none, none⟩]
  claims := none

theorem evenRequest_valid : evenRequest.Valid where
  some_participant := by decide
  participants_le := by decide
  ids := by decide
  names := by decide
  amounts := by decide
  claims_le := by decide
  quantities := by decide
  claimants := by decide

/-- A bill of 100 is split in two. Ana pays 30 and declares 50 more, which her share does not take;
the split can no longer be voided; Luis pays 20. -/
def partyOps : List ShareOp :=
  [ .createSplit 40 (· + 41) 1 (openBill 10 100) [] ⟨evenRequest, evenRequest_valid⟩,
    .ledger (.processSplitPayment 20 0
      { restaurantId := 1, billId := 10, amountPaidMinorUnits := some 30,
        splitParticipantId := some 41 }),
    .ledger (.declareClaim 21 1
      { restaurantId := 1, billId := 10, amountVes := some 50, reference := none,
        splitParticipantId := some 41 }),
    .voidSplit 1 10 40,
    .ledger (.confirmClaim 1 21 .staff none),
    .ledger (.processSplitPayment 22 2
      { restaurantId := 1, billId := 10, amountPaidMinorUnits := some 20,
        splitParticipantId := some 42 }) ]

/-- The shares of every split after every run from bills that were just opened and not split: what a
share counts as paid is the sum of the settled payments that cite it, and not more than it owes; such
a payment is of the bill that was split; the shares of an active split sum to its basis. A payment that
a step takes off its share settles in that step, and the bill takes its whole amount. -/
theorem shares_agree (db : Db) (h : db.Opened) (hsplits : db.splits = ∅) (hshares : db.shares = ∅)
    (ops : List ShareOp) :
    let w := shareLedger.run (.idle db) ops
    (∀ share ∈ w.db.shares, share.amountPaidVes = w.db.credited share.id ∧
      0 ≤ share.amountPaidVes ∧ share.amountPaidVes ≤ share.amountVes) ∧
    (∀ p ∈ w.db.payments, p.status.counted → ∀ id ∈ p.splitParticipantId,
      w.db.Owns p.billId id) ∧
    (∀ split ∈ w.db.splits, split.status = .active →
      w.db.shareTotal split.id = split.basisVes) ∧
    (∀ b ∈ w.db.bills, b.amountPaidVes = w.db.settled b.id) ∧
    ∀ op, ∀ p ∈ w.db.payments, ∀ p' ∈ (shareLedger.step w op).1.db.payments, p'.id = p.id →
      p'.splitParticipantId ≠ p.splitParticipantId →
      Detaches w.db (shareLedger.step w op).1.db p p' := by
  intro w
  have hstart : db.Shared := by
    refine ⟨?_, ?_, fun p hp hcounted => ?_, ?_⟩
    · rw [hshares]
      nofun
    · rw [hshares]
      nofun
    · rw [h.payments p hp] at hcounted
      cases hcounted
    · rw [hsplits]
      nofun
  obtain ⟨hsound, hshared⟩ := run_shared (w := .idle db) (.idle h.sound) hstart ops
  refine ⟨fun share hshare => ?_, hshared.owner, fun split hsplit hactive => ?_, hsound.db.cached,
    fun op => ?_⟩
  · obtain ⟨hnonneg, hle⟩ := SplitParticipant.paid_le_of_checked (hshared.checked share hshare)
    exact ⟨hshared.paid share hshare, hnonneg, hle⟩
  · exact hshared.sums split hsplit hactive nofun
  · exact (shareLedger_step hsound op).2.detached

theorem shares_agree_party :
    let w := shareLedger.run (.idle evening) partyOps
    (w.db.shares.rows.map fun r => (r.id, r.amountVes, r.amountPaidVes)) =
      [(41, 50, 30), (42, 50, 20)] ∧
    (w.db.payments.rows.map fun p => (p.id, p.amountVes, p.status, p.splitParticipantId)) =
      [(20, 30, .succeeded, some 41), (21, 50, .succeeded, none), (22, 20, .succeeded, some 42)] ∧
    (∀ share ∈ w.db.shares, share.amountPaidVes = w.db.credited share.id) ∧
    ∀ b ∈ w.db.bills, b.amountPaidVes = w.db.settled b.id := by
  have h := shares_agree evening evening_opened rfl rfl partyOps
  exact ⟨by decide +kernel, by decide +kernel, fun share hshare => (h.1 share hshare).1, h.2.2.2.1⟩

end Splite
