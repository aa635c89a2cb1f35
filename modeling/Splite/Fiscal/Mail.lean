import Splite.Basic
import Splite.Lib.Owing

/-!
# Mailed invoices (`services/fiscalMail.js`)

The attempt behind an invoice that is issued, and the passes over the deliveries that are left,
statement by statement. An attempt reads its delivery, mails it and writes down what became of it, and
nothing keeps another attempt of the same delivery out meanwhile.

* `sent_stays`: a delivery that is SENT stays so; the check of the table refuses a late failure.
* `mailed_once_iff`: no delivery is mailed twice exactly when no mail goes out behind one that has not
  been written down, or that has since the delivery was read.
-/

namespace Splite

inductive DeliveryStatus where
  | pending
  | sent
  | failed
  deriving DecidableEq, Repr

/-- A row of `fiscal_invoice_deliveries`, with its check on when it was sent. -/
structure InvoiceDelivery where
  id : Uuid
  invoiceId : Uuid
  email : String
  status : DeliveryStatus
  attempts : Nat
  lastError : Option String
  providerMessageId : Option String
  sentAt : Option Time
  createdAt : Time
  sent_at_check : status = .sent ↔ sentAt.isSome = true
  deriving DecidableEq, Repr

instance : Keyed InvoiceDelivery Uuid := ⟨InvoiceDelivery.id⟩

/-- What `mailer.send` answers. -/
inductive MailResult where
  | sent (id : Option String)
  | failed (error : Option String)
  deriving DecidableEq, Repr

/-- The deliveries as committed, those whose mail has been accepted by the provider, and the clock. -/
structure MailDb where
  deliveries : Table InvoiceDelivery
  outbox : List Uuid
  now : Time

namespace MailDb

/-- How many attempts a delivery has. -/
def MAX_ATTEMPTS : Nat := 5

/-- `scheduleDelivery`: a new row, unless the address has had the document. -/
def schedule? (b : MailDb) (id invoiceId : Uuid) (email : String) : Option MailDb :=
  if email = "" ∨ ∃ d ∈ b.deliveries.rows, d.invoiceId = invoiceId ∧ lowered d.email = lowered email then
    none
  else
    (b.deliveries.insert?
      { id, invoiceId, email, status := .pending, attempts := 0, lastError := none
        providerMessageId := none, sentAt := none, createdAt := b.now
        sent_at_check := by simp }).map fun deliveries => { b with deliveries }

/-- The query of `sweepPending`. -/
def pending (b : MailDb) (limit : Nat) : List Uuid :=
  (((b.deliveries.rows.filter fun d => d.status ≠ .sent ∧ d.attempts < MAX_ATTEMPTS).mergeSort
    fun d e => d.createdAt ≤ e.createdAt).take limit).map (·.id)

/-- The `UPDATE` of an attempt that failed, of a row that has not been sent. -/
def failedRow (error : Option String) (d : InvoiceDelivery) : InvoiceDelivery :=
  if h : d.sentAt.isSome = true then d
  else
    { d with
      status := .failed, attempts := d.attempts + 1, lastError := some (error.getD "unknown")
      sent_at_check := by simp [h] }

/-- The `UPDATE` of an attempt whose mail was accepted. -/
def sentRow (now : Time) (id : Option String) (d : InvoiceDelivery) : InvoiceDelivery :=
  { d with
    status := .sent, attempts := d.attempts + 1, lastError := none, providerMessageId := id
    sentAt := some now, sent_at_check := by simp }

theorem failedRow_key (error : Option String) (d : InvoiceDelivery) :
    Keyed.key (failedRow error d) = Keyed.key d := by
  unfold failedRow
  split <;> rfl

theorem sentRow_key (now : Time) (id : Option String) (d : InvoiceDelivery) :
    Keyed.key (sentRow now id d) = Keyed.key d := rfl

def writeFailed (b : MailDb) (id : Uuid) (error : Option String) : MailDb :=
  { b with deliveries := b.deliveries.update id (failedRow error) (failedRow_key error) }

def writeSent (b : MailDb) (id : Uuid) (messageId : Option String) : MailDb :=
  { b with deliveries := b.deliveries.update id (sentRow b.now messageId) (sentRow_key b.now messageId) }

/-- The delivery is marked SENT. -/
def IsSent (b : MailDb) (id : Uuid) : Prop := ∃ d ∈ b.deliveries.find? id, d.status = .sent

instance (b : MailDb) (id : Uuid) : Decidable (b.IsSent id) :=
  match h : b.deliveries.find? id with
  | none => isFalse fun ⟨d, hd, _⟩ => by simp [h] at hd
  | some d => decidable_of_iff (d.status = .sent) (by simp [IsSent, h])

end MailDb

structure SweepCounts where
  attempted : Nat
  sent : Nat
  failed : Nat
  deriving DecidableEq, Repr

inductive MailCall where
  /-- `persistIssued` writes the document and its delivery, and `finishIssue` attempts it. -/
  | issue (id invoiceId : Uuid) (email : String) (result : MailResult)
  /-- `sweepPending`, with what the mailer will answer to its attempts. -/
  | sweep (limit : Nat) (results : List MailResult)
  | elapse (ms : Nat)
  deriving DecidableEq, Repr

/-- An attempt, the deliveries that are left behind it, what the mailer will answer, and the counts so
far. -/
structure Attempt where
  deliveryId : Uuid
  left : List Uuid
  results : List MailResult
  counts : SweepCounts
  deriving DecidableEq, Repr

/-- What the mailer will answer next. -/
def Attempt.result (a : Attempt) : MailResult := a.results.headD (.failed none)

/-- The next statement, or the mail. -/
inductive MailPhase where
  | begun (call : MailCall)
  | reading (a : Attempt)
  /-- `mailer.send`. -/
  | sending (a : Attempt)
  | writing (a : Attempt) (result : MailResult)
  deriving DecidableEq, Repr

/-- The mail of the delivery is accepted, and not written down yet. -/
def MailPhase.hasMailed (id : Uuid) : MailPhase → Bool
  | .writing a (.sent _) => a.deliveryId = id
  | _ => false

inductive MailEvent where
  | mailed (id : Uuid)
  | swept (counts : SweepCounts)
  | failed (err : Err)
  deriving DecidableEq, Repr

/-- The loop goes on with the next delivery. -/
def Attempt.finish (a : Attempt) (b : MailDb) (sent : Bool) : Advance MailDb MailPhase MailEvent :=
  let counts := ⟨a.counts.attempted + 1, a.counts.sent + sent.toNat, a.counts.failed + (!sent).toNat⟩
  match a.left with
  | [] => .ends b [.swept counts]
  | id :: left => .goes b (.reading { a with deliveryId := id, left, counts }) []

open MailDb in
/-- The next statement; no other call keeps it waiting. -/
def MailPhase.next (b : MailDb) (_ : List MailPhase) : MailPhase → Advance MailDb MailPhase MailEvent
  | .begun (.issue id invoiceId email result) =>
    match b.schedule? id invoiceId email with
    | none => .ends b []
    | some b' => .goes b' (.reading ⟨id, [], [result], ⟨0, 0, 0⟩⟩) []
  | .begun (.sweep limit results) =>
    match b.pending limit with
    | [] => .ends b [.swept ⟨0, 0, 0⟩]
    | id :: left => .goes b (.reading ⟨id, left, results, ⟨0, 0, 0⟩⟩) []
  | .begun (.elapse ms) => .ends { b with now := b.now + ms } []
  | .reading a =>
    match b.deliveries.find? a.deliveryId with
    | none => a.finish b false
    | some d =>
      if d.status = .sent then a.finish b true
      else if MAX_ATTEMPTS ≤ d.attempts then a.finish b false
      else .goes b (.sending a) []
  | .sending a =>
    let a' := { a with results := a.results.tail }
    match a.result with
    | .sent id =>
      .goes { b with outbox := b.outbox ++ [a.deliveryId] } (.writing a' (.sent id)) [.mailed a.deliveryId]
    | .failed error => .goes b (.writing a' (.failed error)) []
  | .writing a (.sent messageId) => a.finish (b.writeSent a.deliveryId messageId) true
  | .writing a (.failed error) =>
    -- `CHECK ((status = 'SENT') = (sent_at IS NOT NULL))`, and nothing here takes `sent_at` back.
    if b.IsSent a.deliveryId then
      .ends b [.failed (.checkViolation "fiscal_deliveries_sent_at_check")]
    else a.finish (b.writeFailed a.deliveryId error) false

def mailing : Protocol MailDb MailPhase MailCall MailEvent where
  start := .begun
  next := MailPhase.next

/-! ## Statements -/

/-- What a statement commits and answers, and where it leaves the call. -/
inductive MailStep (b b' : MailDb) (t : MailPhase) (t' : Option MailPhase) : List MailEvent → Prop where
  | same (answer : List MailEvent) : b'.deliveries = b.deliveries → b'.outbox = b.outbox →
      (∀ id, t.hasMailed id = false) → (∀ id, ∀ u ∈ t', u.hasMailed id = false) →
      (∀ id, .mailed id ∉ answer) → MailStep b b' t t' answer
  | issued (id invoiceId : Uuid) (email : String) : b.schedule? id invoiceId email = some b' →
      (∀ id, t.hasMailed id = false) → (∀ id, ∀ u ∈ t', u.hasMailed id = false) → MailStep b b' t t' []
  | mailed (a : Attempt) (messageId : Option String) : t = .sending a → a.result = .sent messageId →
      b' = { b with outbox := b.outbox ++ [a.deliveryId] } →
      t' = some (.writing { a with results := a.results.tail } (.sent messageId)) →
      MailStep b b' t t' [.mailed a.deliveryId]
  | sent (a : Attempt) (messageId : Option String) (answer : List MailEvent) :
      t = .writing a (.sent messageId) → b' = b.writeSent a.deliveryId messageId →
      (∀ id, ∀ u ∈ t', u.hasMailed id = false) → (∀ id, .mailed id ∉ answer) → MailStep b b' t t' answer
  | failed (a : Attempt) (error : Option String) (answer : List MailEvent) :
      t = .writing a (.failed error) → ¬b.IsSent a.deliveryId → b' = b.writeFailed a.deliveryId error →
      (∀ id, ∀ u ∈ t', u.hasMailed id = false) → (∀ id, .mailed id ∉ answer) → MailStep b b' t t' answer

/-- The delivery of an attempt that has been read is there, and a mail that has been accepted is in the
outbox. -/
structure MailPhase.Known (b : MailDb) (t : MailPhase) : Prop where
  row : ∀ a, t = .sending a ∨ (∃ result, t = .writing a result) →
    (b.deliveries.find? a.deliveryId).isSome = true
  outbox : ∀ id, t.hasMailed id = true → id ∈ b.outbox

section Statements

variable {b b' : MailDb} {t t' u : MailPhase} {us : List MailPhase} {answer : List MailEvent}
  {a : Attempt} {sent : Bool} {id : Uuid}

theorem finish_goes (h : a.finish b sent = .goes b' t' answer) :
    b' = b ∧ (∃ a', t' = .reading a') ∧ answer = [] := by
  unfold Attempt.finish at h
  dsimp only at h
  split at h
  · cases h
  · cases h
    exact ⟨rfl, ⟨_, rfl⟩, rfl⟩

theorem finish_ends (h : a.finish b sent = .ends b' answer) : b' = b ∧ ∀ id, .mailed id ∉ answer := by
  unfold Attempt.finish at h
  dsimp only at h
  split at h
  · cases h
    exact ⟨rfl, by simp⟩
  · cases h

theorem next_ends_mail (us : List MailPhase) (h : t.next b us = .ends b' answer) :
    MailStep b b' t none answer := by
  cases t with
  | begun call =>
    cases call with
    | issue id invoiceId email result =>
      unfold MailPhase.next at h
      dsimp only at h
      split at h <;> cases h
      exact .same _ rfl rfl (fun _ => rfl) (by simp) (by simp)
    | sweep limit results =>
      unfold MailPhase.next at h
      dsimp only at h
      split at h <;> cases h
      exact .same _ rfl rfl (fun _ => rfl) (by simp) (by simp)
    | elapse ms =>
      cases h
      exact .same _ rfl rfl (fun _ => rfl) (by simp) (by simp)
  | reading a =>
    unfold MailPhase.next at h
    dsimp only at h
    have hfinish : ∀ {sent : Bool}, a.finish b sent = .ends b' answer →
        MailStep b b' (.reading a) none answer := by
      intro sent h
      obtain ⟨rfl, hanswer⟩ := finish_ends h
      exact .same _ rfl rfl (fun _ => rfl) (by simp) hanswer
    split at h
    · exact hfinish h
    · split at h
      · exact hfinish h
      · split at h
        · exact hfinish h
        · cases h
  | sending a =>
    unfold MailPhase.next at h
    dsimp only at h
    split at h <;> cases h
  | writing a result =>
    cases result with
    | sent messageId =>
      unfold MailPhase.next at h
      dsimp only at h
      obtain ⟨rfl, hanswer⟩ := finish_ends h
      exact .sent a messageId answer rfl rfl (by simp) hanswer
    | failed error =>
      unfold MailPhase.next at h
      dsimp only at h
      split at h
      · cases h
        exact .same _ rfl rfl (fun _ => rfl) (by simp) (by simp)
      · rename_i hsent
        obtain ⟨rfl, hanswer⟩ := finish_ends h
        exact .failed a error answer rfl hsent rfl (by simp) hanswer

theorem next_goes_mail (us : List MailPhase) (h : t.next b us = .goes b' t' answer) :
    MailStep b b' t (some t') answer := by
  cases t with
  | begun call =>
    cases call with
    | issue id invoiceId email result =>
      unfold MailPhase.next at h
      dsimp only at h
      split at h
      · cases h
      · rename_i b₁ hschedule
        cases h
        exact .issued id invoiceId email hschedule (fun _ => rfl) (by simp [MailPhase.hasMailed])
    | sweep limit results =>
      unfold MailPhase.next at h
      dsimp only at h
      split at h <;> cases h
      exact .same _ rfl rfl (fun _ => rfl) (by simp [MailPhase.hasMailed]) (by simp)
    | elapse ms => cases h
  | reading a =>
    unfold MailPhase.next at h
    dsimp only at h
    have hfinish : ∀ {sent : Bool}, a.finish b sent = .goes b' t' answer →
        MailStep b b' (.reading a) (some t') answer := by
      intro sent h
      obtain ⟨rfl, ⟨a', rfl⟩, rfl⟩ := finish_goes h
      exact .same _ rfl rfl (fun _ => rfl) (by simp [MailPhase.hasMailed]) (by simp)
    split at h
    · exact hfinish h
    · split at h
      · exact hfinish h
      · split at h
        · exact hfinish h
        · cases h
          exact .same _ rfl rfl (fun _ => rfl) (by simp [MailPhase.hasMailed]) (by simp)
  | sending a =>
    unfold MailPhase.next at h
    dsimp only at h
    split at h
    · rename_i messageId hresult
      cases h
      exact .mailed a messageId rfl hresult rfl rfl
    · cases h
      exact .same _ rfl rfl (fun _ => rfl) (by simp [MailPhase.hasMailed]) (by simp)
  | writing a result =>
    cases result with
    | sent messageId =>
      unfold MailPhase.next at h
      dsimp only at h
      obtain ⟨rfl, ⟨a', rfl⟩, rfl⟩ := finish_goes h
      exact .sent a messageId _ rfl rfl (by simp [MailPhase.hasMailed]) (by simp)
    | failed error =>
      unfold MailPhase.next at h
      dsimp only at h
      split at h
      · cases h
      · rename_i hsent
        obtain ⟨rfl, ⟨a', rfl⟩, rfl⟩ := finish_goes h
        exact .failed a error _ rfl hsent rfl (by simp [MailPhase.hasMailed]) (by simp)

/-- A delivery that is scheduled is new, and has not been sent. -/
theorem find?_schedule {id' invoiceId : Uuid} {email : String}
    (h : b.schedule? id' invoiceId email = some b') : b.deliveries.find? id' = none ∧
      ∃ d, d.status = .pending ∧ ∀ id, b'.deliveries.find? id =
        if id = id' then some d else b.deliveries.find? id := by
  unfold MailDb.schedule? at h
  split at h
  · cases h
  · obtain ⟨deliveries, hins, rfl⟩ := Option.map_eq_some_iff.mp h
    exact ⟨Table.find?_eq_none.mpr (Table.insert?_eq_some.mp hins).1, _, rfl,
      fun id => Table.find?_insert? hins⟩

/-- The deliveries of before are there as they were. -/
theorem find?_scheduled {id' invoiceId : Uuid} {email : String} {d : InvoiceDelivery}
    (h : b.schedule? id' invoiceId email = some b') (hd : b.deliveries.find? id = some d) :
    b'.deliveries.find? id = some d := by
  obtain ⟨hnew, _, -, hfind⟩ := find?_schedule h
  rw [hfind, if_neg, hd]
  rintro rfl
  rw [hnew] at hd
  cases hd

theorem outbox_schedule {id' invoiceId : Uuid} {email : String}
    (h : b.schedule? id' invoiceId email = some b') : b'.outbox = b.outbox := by
  unfold MailDb.schedule? at h
  split at h
  · cases h
  · obtain ⟨deliveries, -, rfl⟩ := Option.map_eq_some_iff.mp h
    rfl

theorem find?_writeSent {id' : Uuid} {messageId : Option String} :
    (b.writeSent id' messageId).deliveries.find? id = if id = id' then
      (b.deliveries.find? id).map (MailDb.sentRow b.now messageId) else b.deliveries.find? id :=
  Table.find?_update_with _ (MailDb.sentRow_key b.now messageId) _

theorem find?_writeFailed {id' : Uuid} {error : Option String} :
    (b.writeFailed id' error).deliveries.find? id = if id = id' then
      (b.deliveries.find? id).map (MailDb.failedRow error) else b.deliveries.find? id :=
  Table.find?_update_with _ (MailDb.failedRow_key error) _

/-- No delivery is taken away. -/
theorem MailStep.row {t'' : Option MailPhase} (h : MailStep b b' t t'' answer)
    (hrow : (b.deliveries.find? id).isSome = true) : (b'.deliveries.find? id).isSome = true := by
  cases h with
  | same _ hsame =>
    rw [hsame]
    exact hrow
  | issued id' invoiceId email hschedule =>
    obtain ⟨d, hd⟩ := Option.isSome_iff_exists.mp hrow
    rw [find?_scheduled hschedule hd]
    rfl
  | mailed a messageId _ _ hb' =>
    subst hb'
    exact hrow
  | sent a messageId _ _ hb' =>
    subst hb'
    rw [find?_writeSent]
    split
    · rw [Option.isSome_map]
      exact hrow
    · exact hrow
  | failed a error _ _ _ hb' =>
    subst hb'
    rw [find?_writeFailed]
    split
    · rw [Option.isSome_map]
      exact hrow
    · exact hrow

/-- A delivery that is SENT stays so. -/
theorem MailStep.isSent {t'' : Option MailPhase} (h : MailStep b b' t t'' answer) (hsent : b.IsSent id) :
    b'.IsSent id := by
  obtain ⟨d, hd, hstatus⟩ := hsent
  have hd : b.deliveries.find? id = some d := hd
  cases h with
  | same _ hsame => exact ⟨d, by rw [hsame]; exact hd, hstatus⟩
  | issued id' invoiceId email hschedule => exact ⟨d, find?_scheduled hschedule hd, hstatus⟩
  | mailed a messageId _ _ hb' =>
    subst hb'
    exact ⟨d, hd, hstatus⟩
  | sent a messageId _ _ hb' =>
    subst hb'
    rw [MailDb.IsSent, find?_writeSent, hd]
    split
    · exact ⟨_, rfl, rfl⟩
    · exact ⟨d, rfl, hstatus⟩
  | failed a error _ _ hnot hb' =>
    subst hb'
    rw [MailDb.IsSent, find?_writeFailed, if_neg, hd]
    · exact ⟨d, rfl, hstatus⟩
    · rintro rfl
      exact hnot ⟨d, hd, hstatus⟩

theorem MailStep.outbox {t'' : Option MailPhase} (h : MailStep b b' t t'' answer) :
    id ∈ b'.outbox ↔ id ∈ b.outbox ∨ .mailed id ∈ answer := by
  cases h with
  | same _ _ hsame _ _ hanswer => simp [hsame, hanswer]
  | issued id' invoiceId email hschedule => simp [outbox_schedule hschedule]
  | mailed a messageId _ _ hb' =>
    subst hb'
    simp
  | sent a messageId _ _ hb' _ hanswer =>
    subst hb'
    simp [MailDb.writeSent, hanswer]
  | failed a error _ _ _ hb' _ hanswer =>
    subst hb'
    simp [MailDb.writeFailed, hanswer]

/-- What is mailed and not SENT is so because of the call that goes on, or was so before beside it. -/
theorem MailStep.owed {t'' : Option MailPhase} (h : MailStep b b' t t'' answer) (ht : t.Known b)
    (hid : id ∈ b'.outbox ∧ ¬b'.IsSent id) :
    (∃ u ∈ t'', u.hasMailed id = true) ∨
      (id ∈ b.outbox ∧ ¬b.IsSent id) ∧ ¬t.hasMailed id = true := by
  have hnot : ¬b.IsSent id := fun hsent => hid.2 (h.isSent hsent)
  have hold := h.outbox.mp hid.1
  cases h with
  | same _ _ _ hquiet _ hanswer => exact .inr ⟨⟨hold.resolve_right (hanswer id), hnot⟩, by simp [hquiet]⟩
  | issued _ _ _ _ hquiet => exact .inr ⟨⟨hold.resolve_right List.not_mem_nil, hnot⟩, by simp [hquiet]⟩
  | mailed a messageId hphase _ _ ht' =>
    subst hphase ht'
    rcases hold with hold | hnew
    · exact .inr ⟨⟨hold, hnot⟩, by simp [MailPhase.hasMailed]⟩
    · obtain rfl : id = a.deliveryId := by simpa using hnew
      exact .inl ⟨_, rfl, by simp [MailPhase.hasMailed]⟩
  | sent a messageId _ hphase hb' _ hanswer =>
    subst hphase hb'
    refine .inr ⟨⟨hold.resolve_right (hanswer id), hnot⟩, fun hmailed => hid.2 ?_⟩
    obtain rfl : a.deliveryId = id := by simpa [MailPhase.hasMailed] using hmailed
    obtain ⟨d, hd⟩ := Option.isSome_iff_exists.mp (ht.row a (.inr ⟨_, rfl⟩))
    rw [MailDb.IsSent, find?_writeSent, if_pos rfl, hd]
    exact ⟨_, rfl, rfl⟩
  | failed a error _ hphase _ _ _ hanswer =>
    subst hphase
    exact .inr ⟨⟨hold.resolve_right (hanswer id), hnot⟩, by simp [MailPhase.hasMailed]⟩

/-- A delivery becomes SENT by a call that has mailed it. -/
theorem MailStep.sent_of {t'' : Option MailPhase} (h : MailStep b b' t t'' answer) (hsent : b'.IsSent id) :
    b.IsSent id ∨ t.hasMailed id = true := by
  obtain ⟨d, hd, hstatus⟩ := hsent
  have hd : b'.deliveries.find? id = some d := hd
  cases h with
  | same _ hsame =>
    rw [hsame] at hd
    exact .inl ⟨d, hd, hstatus⟩
  | issued id' invoiceId email hschedule =>
    obtain ⟨-, d', hpending, hfind⟩ := find?_schedule hschedule
    rw [hfind] at hd
    split at hd
    · cases hd
      rw [hpending] at hstatus
      cases hstatus
    · exact .inl ⟨d, hd, hstatus⟩
  | mailed a messageId _ _ hb' =>
    subst hb'
    exact .inl ⟨d, hd, hstatus⟩
  | sent a messageId _ hphase hb' =>
    subst hphase hb'
    rw [find?_writeSent] at hd
    split at hd
    · rename_i hid
      exact .inr (by simp [MailPhase.hasMailed, hid])
    · exact .inl ⟨d, hd, hstatus⟩
  | failed a error _ _ _ hb' =>
    subst hb'
    rw [find?_writeFailed] at hd
    split at hd
    · obtain ⟨d', hd', rfl⟩ := Option.map_eq_some_iff.mp hd
      unfold MailDb.failedRow at hstatus
      split at hstatus
      · exact .inl ⟨d', hd', hstatus⟩
      · cases hstatus
    · exact .inl ⟨d, hd, hstatus⟩

theorem MailPhase.Known.other {t'' : Option MailPhase} (hu : u.Known b)
    (h : MailStep b b' t t'' answer) : u.Known b' :=
  ⟨fun a ha => h.row (hu.row a ha), fun id hid => h.outbox.mpr (.inl (hu.outbox id hid))⟩

/-- A call that goes on has read its delivery. -/
theorem next_goes_row (us : List MailPhase) (ht : t.Known b) (h : t.next b us = .goes b' t' answer)
    {a : Attempt} (ha : t' = .sending a ∨ ∃ result, t' = .writing a result) :
    (b'.deliveries.find? a.deliveryId).isSome = true := by
  have hfinish : ∀ {b₁ : MailDb} {a₁ : Attempt} {sent : Bool},
      a₁.finish b₁ sent = .goes b' t' answer → False := by
    intro b₁ a₁ sent h
    obtain ⟨-, ⟨a', rfl⟩, -⟩ := finish_goes h
    rcases ha with ha | ⟨_, ha⟩ <;> cases ha
  cases t with
  | begun call =>
    cases call with
    | issue id invoiceId email result =>
      unfold MailPhase.next at h
      dsimp only at h
      split at h <;> cases h
      rcases ha with ha | ⟨_, ha⟩ <;> cases ha
    | sweep limit results =>
      unfold MailPhase.next at h
      dsimp only at h
      split at h <;> cases h
      rcases ha with ha | ⟨_, ha⟩ <;> cases ha
    | elapse ms => cases h
  | reading a' =>
    unfold MailPhase.next at h
    dsimp only at h
    split at h
    · exact (hfinish h).elim
    · rename_i d hfind
      split at h
      · exact (hfinish h).elim
      · split at h
        · exact (hfinish h).elim
        · cases h
          rcases ha with ha | ⟨_, ha⟩
          · cases ha
            rw [hfind]
            rfl
          · cases ha
  | sending a' =>
    have hrow := (next_goes_mail us h).row (ht.row a' (.inl rfl))
    unfold MailPhase.next at h
    dsimp only at h
    split at h
    · cases h
      rcases ha with ha | ⟨_, ha⟩ <;> cases ha
      exact hrow
    · cases h
      rcases ha with ha | ⟨_, ha⟩ <;> cases ha
      exact hrow
  | writing a' result =>
    cases result with
    | sent messageId => exact (hfinish h).elim
    | failed error =>
      unfold MailPhase.next at h
      dsimp only at h
      split at h
      · cases h
      · exact (hfinish h).elim

theorem next_goes_known (us : List MailPhase) (ht : t.Known b) (h : t.next b us = .goes b' t' answer) :
    t'.Known b' := by
  have hstep := next_goes_mail us h
  refine ⟨fun a ha => next_goes_row us ht h ha, fun id hid => ?_⟩
  generalize hafter : some t' = t'' at hstep
  cases hstep with
  | same _ _ _ _ hquiet =>
    subst hafter
    rw [hquiet id t' rfl] at hid
    cases hid
  | issued _ _ _ _ _ hquiet =>
    subst hafter
    rw [hquiet id t' rfl] at hid
    cases hid
  | mailed a messageId _ _ hb' ht' =>
    subst hb' hafter
    cases ht'
    obtain rfl : a.deliveryId = id := by simpa [MailPhase.hasMailed] using hid
    simp
  | sent _ _ _ _ _ hquiet =>
    subst hafter
    rw [hquiet id t' rfl] at hid
    cases hid
  | failed _ _ _ _ _ _ hquiet =>
    subst hafter
    rw [hquiet id t' rfl] at hid
    cases hid

end Statements

/-! ## Once -/

/-- A mail goes out only while its delivery is not SENT, and no other attempt has mailed it and not
written that down. -/
def SendsAlone (b : MailDb) (us : List MailPhase) : MailPhase → Prop
  | .sending a => match a.result with
    | .sent _ => ¬b.IsSent a.deliveryId ∧ ∀ u ∈ us, u.hasMailed a.deliveryId = false
    | .failed _ => True
  | _ => True

instance (b : MailDb) (us : List MailPhase) (t : MailPhase) : Decidable (SendsAlone b us t) := by
  unfold SendsAlone
  split
  · split <;> infer_instance
  · infer_instance

/-- What the provider accepts in a move it has not accepted before, and what is SENT stays so. -/
structure MailsOnce (w : Sessions MailDb MailPhase) (m : Move MailCall) : Prop where
  mailed : ∀ id, .mailed id ∈ (mailing.machine.step w m).2 → id ∉ w.committed.outbox
  sent : ∀ id, w.committed.IsSent id → (mailing.machine.step w m).1.committed.IsSent id

theorem mailRule : mailing.Rule (fun _ => True) (fun _ _ _ => True)
    (fun b => ∀ id, b.IsSent id → id ∈ b.outbox) (fun b t => t.Known b) (fun _ _ => True) where
  symm _ _ _ := trivial
  start b call _ _ := ⟨⟨by simp [mailing], by simp [mailing, MailPhase.hasMailed]⟩, fun _ _ => trivial⟩
  goes b us t hb ht hus _ b' t' answer hnext := by
    have hstep := next_goes_mail us hnext
    refine ⟨fun id hid => hstep.outbox.mpr (.inl ?_), next_goes_known us ht hnext, fun u hu =>
      ⟨(hus u hu).1.other hstep, trivial⟩⟩
    rcases hstep.sent_of hid with hsent | hmailed
    · exact hb id hsent
    · exact ht.outbox id hmailed
  ends b us t hb ht hus _ b' answer hnext := by
    have hstep := next_ends_mail us hnext
    refine ⟨fun id hid => hstep.outbox.mpr (.inl ?_), fun u hu => (hus u hu).1.other hstep⟩
    rcases hstep.sent_of hid with hsent | hmailed
    · exact hb id hsent
    · exact ht.outbox id hmailed

/-- A mail that has gone out is written down by the call that has mailed it. -/
theorem mailing_owes : mailing.Owes (fun b _ t => t.Known b) (fun b id => id ∈ b.outbox ∧ ¬b.IsSent id)
    (fun t id => t.hasMailed id = true) where
  goes b us t b' t' answer ht hnext id hid := by
    rcases (next_goes_mail us hnext).owed ht hid with ⟨u, hu, hmailed⟩ | hold
    · obtain rfl := Option.some.inj hu
      exact .inl hmailed
    · exact .inr hold
  ends b us t b' answer ht hnext id hid := by
    rcases (next_ends_mail us hnext).owed ht hid with ⟨u, hu, -⟩ | hold
    · cases hu
    · exact hold

/-- What holds of all that runs: mails are in the outbox before they are written down, and are written
down by who has mailed them. -/
structure MailsKnown (w : Sessions MailDb MailPhase) : Prop where
  holds : Protocol.Holds (fun b : MailDb => ∀ id, b.IsSent id → id ∈ b.outbox) (fun b t => t.Known b)
    (fun _ _ => True) w
  owed : Protocol.Owed (fun b id => id ∈ b.outbox ∧ ¬b.IsSent id) (fun t id => t.hasMailed id = true) w

theorem MailsKnown.step {w : Sessions MailDb MailPhase} (h : MailsKnown w) (m : Move MailCall)
    (hm : m.isAbort = false) : MailsKnown (mailing.machine.step w m).1 where
  holds := mailRule.step w m h.holds (Protocol.allowed_any m)
  owed := by
    refine mailing_owes.step w m h.owed (S := fun _ => True) ?_ hm
    cases m with
    | start id call => trivial
    | abort id => trivial
    | go id => exact fun r hr => h.holds.session r (Table.find?_mem hr)

/-- What is SENT stays SENT, whatever statement comes next. -/
theorem sent_stays (w : Sessions MailDb MailPhase) (m : Move MailCall) {id : Uuid}
    (h : w.committed.IsSent id) : (mailing.machine.step w m).1.committed.IsSent id := by
  rcases Protocol.move_cases (p := mailing) w m with ⟨r, -, -, hcommitted, -⟩ | ⟨hcommitted, -⟩
  · rw [hcommitted]
    cases hnext : mailing.next w.committed (w.others r.id) r.state with
    | waits => exact h
    | goes b' t' answer => exact (next_goes_mail (w.others r.id) hnext).isSent h
    | ends b' answer => exact (next_ends_mail (w.others r.id) hnext).isSent h
  · rw [hcommitted]
    exact h

/-- Only an attempt whose mail is accepted mails anything. -/
theorem mailed_mem {b : MailDb} {us : List MailPhase} {t : MailPhase} {id : Uuid}
    (h : .mailed id ∈ (mailing.next b us t).answer) :
    ∃ a messageId, t = .sending a ∧ a.result = .sent messageId ∧ id = a.deliveryId := by
  have hstep : ∀ {b' : MailDb} {t'' : Option MailPhase} {answer : List MailEvent},
      MailStep b b' t t'' answer → .mailed id ∈ answer →
        ∃ a messageId, t = .sending a ∧ a.result = .sent messageId ∧ id = a.deliveryId := by
    intro b' t'' answer hstep hid
    cases hstep with
    | same _ _ _ _ _ hanswer => exact absurd hid (hanswer id)
    | issued => cases hid
    | mailed a messageId hphase hresult => exact ⟨a, messageId, hphase, hresult, by simpa using hid⟩
    | sent _ _ _ _ _ _ hanswer => exact absurd hid (hanswer id)
    | failed _ _ _ _ _ _ _ hanswer => exact absurd hid (hanswer id)
  cases hnext : mailing.next b us t with
  | waits =>
    rw [hnext] at h
    cases h
  | goes b' t' answer =>
    rw [hnext] at h
    exact hstep (next_goes_mail us hnext) h
  | ends b' answer =>
    rw [hnext] at h
    exact hstep (next_ends_mail us hnext) h

/-- A mail goes out once exactly when it goes out alone. -/
theorem mailsOnce_iff {w : Sessions MailDb MailPhase} (h : MailsKnown w) (m : Move MailCall) :
    MailsOnce w m ↔ Protocol.Allowed (fun _ => True) SendsAlone w m := by
  constructor
  · intro honce
    cases m with
    | start id call => trivial
    | abort id => trivial
    | go id =>
      intro r hr
      have hmem := Table.find?_mem hr
      have hkey : r.id = id := Table.find?_key hr
      cases hstate : r.state with
      | sending a =>
        cases hresult : a.result with
        | failed error => simp [SendsAlone, hresult]
        | sent messageId =>
          have hnew := honce.mailed a.deliveryId (by
            rw [Protocol.answer_go hr, hstate]
            simp [mailing, MailPhase.next, hresult, Advance.answer])
          simp only [SendsAlone, hresult]
          refine ⟨fun hsent => hnew (h.holds.committed _ hsent), fun u hu => ?_⟩
          rw [← hkey] at hu
          exact Bool.eq_false_iff.mpr fun hmailed =>
            hnew ((h.holds.others hmem u hu).1.outbox _ hmailed)
      | _ => trivial
  · intro halone
    refine ⟨fun id hid hold => ?_, fun id => sent_stays w m⟩
    obtain ⟨sid, r, rfl, hfind, hanswer⟩ := Protocol.answer_mem hid
    obtain ⟨a, messageId, hstate, hresult, rfl⟩ := mailed_mem hanswer
    have hC := halone r hfind
    rw [hstate] at hC
    simp only [SendsAlone, hresult] at hC
    obtain ⟨r', hr', hmailed⟩ := h.owed a.deliveryId ⟨hold, hC.1⟩
    have hne : r'.id ≠ sid := by
      intro heq
      obtain rfl : r' = r := Table.eq_of_key hr' (Table.find?_mem hfind)
        (heq.trans (Table.find?_key hfind).symm)
      rw [hstate] at hmailed
      cases hmailed
    have halone := hC.2 r'.state (Protocol.mem_others.mpr ⟨r', hr', hne, rfl⟩)
    rw [halone] at hmailed
    cases hmailed

/-- In a run in which nothing is broken off, no delivery is mailed twice and none that is SENT moves,
exactly when every mail goes out while its delivery is not SENT and no other attempt of it has mailed
without having written so. -/
theorem mailed_once_iff (b : MailDb) (moves : List (Move MailCall))
    (hstart : ∀ id, id ∈ b.outbox ↔ b.IsSent id) (hcrash : ∀ m ∈ moves, m.isAbort = false) :
    mailing.machine.Every MailsOnce (Sessions.start b) moves ↔
      mailing.machine.Every (Protocol.Allowed (fun _ => True) SendsAlone) (Sessions.start b) moves := by
  have hknown : MailsKnown (Sessions.start b) :=
    ⟨.start fun id hid => (hstart id).mpr hid, fun id hid => absurd ((hstart id).mp hid.1) hid.2⟩
  have hiff :
      mailing.machine.Every (fun w m => MailsOnce w m ∧ m.isAbort = false) (Sessions.start b) moves ↔
        mailing.machine.Every (fun w m =>
          Protocol.Allowed (fun _ => True) SendsAlone w m ∧ m.isAbort = false) (Sessions.start b) moves :=
    Machine.every_iff (I := MailsKnown) (fun w m hw => and_congr_left fun _ => mailsOnce_iff hw m)
      (fun w m hw hm => hw.step m hm.2) hknown
  rw [Machine.every_and, Machine.every_and, Machine.every_input] at hiff
  constructor
  · exact fun h => (hiff.mp ⟨h, hcrash⟩).1
  · exact fun h => (hiff.mpr ⟨h, hcrash⟩).1

/-! ## A slow mailer -/

def noMail : MailDb := ⟨∅, [], 0⟩

/-- A sweep picks up the invoice while its first mail is on its way: it is mailed twice. -/
theorem mailed_twice : ¬mailing.machine.Every MailsOnce (Sessions.start noMail)
    [.start 0 (.issue 1 10 "ana@example.com" (.sent none)), .go 0, .go 0,
      .start 1 (.sweep 50 [.sent none]), .go 1, .go 1, .go 0, .go 1] := by
  intro h
  have hagain := (Machine.every_iff_forall.mp h
    [.start 0 (.issue 1 10 "ana@example.com" (.sent none)), .go 0, .go 0,
      .start 1 (.sweep 50 [.sent none]), .go 1, .go 1, .go 0] (.go 1) [] rfl).mailed 1
  exact hagain (by decide +kernel) (by decide +kernel)

theorem not_isSent_noMail (id : Uuid) : ¬noMail.IsSent id := by
  have hnone : noMail.deliveries.find? id = none := rfl
  simp [MailDb.IsSent, hnone]

/-- A sweep behind the first attempt mails what that one could not. -/
theorem mailed_by_sweep : mailing.machine.Every MailsOnce (Sessions.start noMail)
    [.start 0 (.issue 1 10 "ana@example.com" (.failed none)), .go 0, .go 0, .go 0, .go 0,
      .start 1 (.sweep 50 [.sent none]), .go 1, .go 1, .go 1, .go 1] :=
  (mailed_once_iff noMail _ (fun id => by simp [not_isSent_noMail]; exact List.not_mem_nil) (by decide)).mpr
    (by decide +kernel)

end Splite
