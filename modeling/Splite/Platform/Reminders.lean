import Splite.Platform.Charges

/-!
# Reminders (`remind` of `services/billingRun.js`)

Passes of `remind` beside each other and beside all that changes charges, users and mailer, statement by
statement. A pass marks a reminder, and the weaker ones with it, before it mails it, and takes back what
it has marked when the mail fails.

* `remindersRule`: a mark that a pass may still take back is its own, and of no reminder that was sent.
* `reminded_once_and_again`: no reminder is sent twice, one that failed goes out in the next pass that
  comes to mark it, and a pass comes to every charge that was open when it began.
-/

namespace Splite

inductive ReminderKind where
  | issued
  | overdue
  | overdue7
  deriving DecidableEq, Repr

def REMINDER_KINDS : List ReminderKind := [.issued, .overdue, .overdue7]

/-- `REMINDER_KINDS.slice(0, REMINDER_KINDS.indexOf(kind) + 1)`. -/
def ReminderKind.toMark (kind : ReminderKind) : List ReminderKind :=
  REMINDER_KINDS.take (REMINDER_KINDS.idxOf kind + 1)

theorem ReminderKind.mem_toMark (kind : ReminderKind) : kind ∈ kind.toMark := by
  cases kind <;> decide

/-- What `remind` reads of a row of `subscription_charges`. -/
structure DueCharge where
  id : Uuid
  restaurantId : Uuid
  dueOn : Day
  status : ChargeStatus
  deriving DecidableEq, Repr

/-- `dueKind(charge, today)`: the strongest one that applies. -/
def dueKind (charge : DueCharge) (today : Day) : ReminderKind :=
  if charge.dueOn ≤ today.addDays (-7) then .overdue7
  else if charge.dueOn < today then .overdue
  else .issued

/-- What `remind` reads of a row of `users`. -/
structure Contact where
  restaurantId : Uuid
  role : String
  active : Bool
  email : Option String
  deriving DecidableEq, Repr

/-- A row of `billing_reminders`. -/
structure ReminderMark where
  chargeId : Uuid
  kind : ReminderKind
  deriving DecidableEq, Repr

/-- A mail that the mailer was given, and whether it took it. -/
structure ReminderMail where
  mark : ReminderMark
  address : String
  sent : Bool
  deriving DecidableEq, Repr

/-- What is committed, with the mails so far; `mailer` is whether the mailer takes the next one. -/
structure ReminderDb where
  charges : List DueCharge
  users : List Contact
  mailer : Bool
  marks : Finset ReminderMark
  mails : List ReminderMail

namespace ReminderDb

/-- No pass has run yet. -/
def fresh (charges : List DueCharge) (users : List Contact) (mailer : Bool) : ReminderDb :=
  ⟨charges, users, mailer, ∅, []⟩

/-- `SELECT … WHERE c.status = 'OPEN'`. -/
def openCharges (b : ReminderDb) : List DueCharge := b.charges.filter fun c => c.status = .open

/-- `SELECT email FROM users …`. -/
def recipients (b : ReminderDb) (restaurantId : Uuid) : List String :=
  (b.users.filter fun u => u.restaurantId = restaurantId ∧ u.role = "OWNER" ∧ u.active).filterMap
    (·.email)

/-- The rows that `INSERT … ON CONFLICT DO NOTHING RETURNING kind` writes. -/
def unmarked (b : ReminderDb) (chargeId : Uuid) (kinds : List ReminderKind) : List ReminderKind :=
  kinds.filter fun k => (⟨chargeId, k⟩ : ReminderMark) ∉ b.marks

def mark (b : ReminderDb) (chargeId : Uuid) (kinds : List ReminderKind) : ReminderDb :=
  { b with marks := b.marks ∪ (kinds.map (ReminderMark.mk chargeId)).toFinset }

/-- `DELETE FROM billing_reminders WHERE charge_id = $1 AND kind = ANY($2)`. -/
def unmark (b : ReminderDb) (chargeId : Uuid) (kinds : List ReminderKind) : ReminderDb :=
  { b with marks := b.marks \ (kinds.map (ReminderMark.mk chargeId)).toFinset }

def mail (b : ReminderDb) (mark : ReminderMark) (owners : List String) : ReminderDb :=
  { b with mails := b.mails ++ [⟨mark, ", ".intercalate owners, b.mailer⟩] }

/-- The reminders that the mailer took. -/
def sent (b : ReminderDb) : List ReminderMark := (b.mails.filter (·.sent)).map (·.mark)

/-- The reminder was mailed, and the mailer did not take it. -/
def Failed (b : ReminderDb) (m : ReminderMark) : Prop := ∃ e ∈ b.mails, e.mark = m ∧ e.sent = false

instance (b : ReminderDb) (m : ReminderMark) : Decidable (b.Failed m) :=
  inferInstanceAs (Decidable (∃ e ∈ b.mails, _))

end ReminderDb

structure ReminderCounts where
  sent : Nat
  failed : Nat
  noRecipient : Nat
  deriving DecidableEq, Repr

/-- A pass at one of its charges, with those that are left. -/
structure Reminding where
  today : Day
  charge : DueCharge
  left : List DueCharge
  counts : ReminderCounts
  deriving DecidableEq, Repr

/-- The reminder that is due for the charge of now. -/
def Reminding.due (p : Reminding) : ReminderMark := ⟨p.charge.id, dueKind p.charge p.today⟩

inductive ReminderCall where
  | remind (today : Day)
  /-- Whatever else changes what a pass reads, and whether the mailer works. -/
  | change (charges : List DueCharge) (users : List Contact) (mailer : Bool)
  deriving DecidableEq, Repr

/-- The next statement of a pass. -/
inductive ReminderPhase where
  /-- The query of `remind`, or a change. -/
  | begun (call : ReminderCall)
  /-- `SELECT email FROM users …`. -/
  | reading (p : Reminding)
  /-- `INSERT INTO billing_reminders …`. -/
  | marking (p : Reminding) (owners : List String)
  /-- `mailer.send`. -/
  | sending (p : Reminding) (owners : List String) (marked : List ReminderKind)
  /-- `DELETE FROM billing_reminders …`. -/
  | releasing (p : Reminding) (marked : List ReminderKind)
  deriving DecidableEq, Repr

namespace ReminderPhase

/-- It has set the mark, and may still take it back. -/
def holds (m : ReminderMark) : ReminderPhase → Bool
  | .sending p _ marked | .releasing p marked => m.chargeId = p.charge.id ∧ m.kind ∈ marked
  | _ => false

/-- It is about to set the mark, if it is not set. -/
def marks (m : ReminderMark) : ReminderPhase → Bool
  | .marking p _ => m.chargeId = p.charge.id ∧ m.kind ∈ p.due.kind.toMark
  | _ => false

/-- It is on the way to mail the reminder that is due for the charge. -/
def attends (p : Reminding) : ReminderPhase → Bool
  | .marking q _ | .sending q _ _ => q.charge = p.charge ∧ q.today = p.today
  | _ => false

end ReminderPhase

/-- The loop goes on with the charges that are left. -/
def remindRest (b : ReminderDb) (today : Day) (counts : ReminderCounts) :
    List DueCharge → Advance ReminderDb ReminderPhase ReminderCounts
  | [] => .ends b [counts]
  | charge :: left => .goes b (.reading ⟨today, charge, left, counts⟩) []

/-- The next statement; no other pass keeps it waiting. -/
def ReminderPhase.next (b : ReminderDb) (_ : List ReminderPhase) :
    ReminderPhase → Advance ReminderDb ReminderPhase ReminderCounts
  | .begun (.remind today) => remindRest b today ⟨0, 0, 0⟩ b.openCharges
  | .begun (.change charges users mailer) => .ends { b with charges, users, mailer } []
  | .reading p =>
    match b.recipients p.charge.restaurantId with
    | [] => remindRest b p.today { p.counts with noRecipient := p.counts.noRecipient + 1 } p.left
    | email :: emails => .goes b (.marking p (email :: emails)) []
  | .marking p owners =>
    let marked := b.unmarked p.charge.id p.due.kind.toMark
    if p.due.kind ∈ marked then .goes (b.mark p.charge.id marked) (.sending p owners marked) []
    else remindRest (b.mark p.charge.id marked) p.today p.counts p.left
  | .sending p owners marked =>
    if b.mailer then
      remindRest (b.mail p.due owners) p.today { p.counts with sent := p.counts.sent + 1 } p.left
    else
      .goes (b.mail p.due owners)
        (.releasing { p with counts := { p.counts with failed := p.counts.failed + 1 } } marked) []
  | .releasing p marked => remindRest (b.unmark p.charge.id marked) p.today p.counts p.left

def reminders : Protocol ReminderDb ReminderPhase ReminderCall ReminderCounts where
  start := .begun
  next := ReminderPhase.next

/-! ## Statements -/

/-- No reminder was sent twice, and one that was is marked. -/
structure ReminderDb.Sound (b : ReminderDb) : Prop where
  once : b.sent.Nodup
  marked : ∀ m ∈ b.sent, m ∈ b.marks

/-- What a pass has marked and may still take back was not sent, and the reminder that it mails is among
it. -/
structure ReminderPhase.Sound (b : ReminderDb) (t : ReminderPhase) : Prop where
  held : ∀ m, t.holds m = true → m ∈ b.marks ∧ m ∉ b.sent
  sending : ∀ p owners marked, t = .sending p owners marked → p.due.kind ∈ marked
  releasing : ∀ p marked, t = .releasing p marked → p.due.kind ∈ marked

def ReminderPhase.Apart (t u : ReminderPhase) : Prop := ∀ m, t.holds m = true → u.holds m = false

/-- It is at the next charge, if at any. -/
def ReminderPhase.isReading : ReminderPhase → Bool
  | .reading _ => true
  | _ => false

/-- What a statement commits, and where it leaves the pass. -/
inductive ReminderStep (b b' : ReminderDb) (t : ReminderPhase) (t' : Option ReminderPhase) : Prop where
  | read : b'.marks = b.marks → b'.mails = b.mails → (∀ m, t.holds m = false) →
      (∀ u ∈ t', u.isReading = true ∨ ∃ p owners, u = .marking p owners) → ReminderStep b b' t t'
  | marked (p : Reminding) (owners : List String) (kinds : List ReminderKind) : t = .marking p owners →
      kinds = b.unmarked p.charge.id p.due.kind.toMark → b' = b.mark p.charge.id kinds →
      (p.due.kind ∈ kinds ∧ t' = some (.sending p owners kinds)) ∨ (∀ u ∈ t', u.isReading = true) →
      ReminderStep b b' t t'
  | sent (p : Reminding) (owners : List String) (kinds : List ReminderKind) :
      t = .sending p owners kinds → b.mailer = true → b' = b.mail p.due owners →
      (∀ u ∈ t', u.isReading = true) → ReminderStep b b' t t'
  | failed (p p' : Reminding) (owners : List String) (kinds : List ReminderKind) :
      t = .sending p owners kinds → b.mailer = false → b' = b.mail p.due owners →
      p'.charge = p.charge → p'.today = p.today → t' = some (.releasing p' kinds) →
      ReminderStep b b' t t'
  | released (p : Reminding) (kinds : List ReminderKind) : t = .releasing p kinds →
      b' = b.unmark p.charge.id kinds → (∀ u ∈ t', u.isReading = true) → ReminderStep b b' t t'

section Statements

variable {b b' : ReminderDb} {t t' : ReminderPhase} {us : List ReminderPhase}
  {answer : List ReminderCounts} {today : Day} {counts : ReminderCounts} {left : List DueCharge}
  {m : ReminderMark} {chargeId : Uuid} {kinds : List ReminderKind}

theorem remindRest_goes (h : remindRest b today counts left = .goes b' t' answer) :
    b' = b ∧ ∃ charge rest, left = charge :: rest ∧ t' = .reading ⟨today, charge, rest, counts⟩ := by
  cases left with
  | nil => cases h
  | cons charge rest =>
    cases h
    exact ⟨rfl, charge, rest, rfl, rfl⟩

theorem remindRest_ends (h : remindRest b today counts left = .ends b' answer) : b' = b ∧ left = [] := by
  cases left with
  | nil =>
    cases h
    exact ⟨rfl, rfl⟩
  | cons charge rest => cases h

theorem remindRest_reads (h : remindRest b today counts left = .goes b' t' answer) :
    b' = b ∧ ∀ u ∈ some t', u.isReading = true := by
  obtain ⟨rfl, charge, rest, -, rfl⟩ := remindRest_goes h
  exact ⟨rfl, by simp [ReminderPhase.isReading]⟩

theorem reminders_goes (us : List ReminderPhase) (h : t.next b us = .goes b' t' answer) :
    ReminderStep b b' t (some t') := by
  cases t with
  | begun call =>
    cases call with
    | remind today =>
      obtain ⟨rfl, hread⟩ := remindRest_reads h
      exact .read rfl rfl (fun _ => rfl) fun u hu => .inl (hread u hu)
    | change charges users mailer => cases h
  | reading p =>
    unfold ReminderPhase.next at h
    dsimp only at h
    split at h
    · obtain ⟨rfl, hread⟩ := remindRest_reads h
      exact .read rfl rfl (fun _ => rfl) fun u hu => .inl (hread u hu)
    · cases h
      exact .read rfl rfl (fun _ => rfl) fun u hu => .inr ⟨p, _, (Option.mem_some_iff.mp hu).symm⟩
  | marking p owners =>
    unfold ReminderPhase.next at h
    dsimp only at h
    split at h
    · rename_i hdue
      cases h
      exact .marked p owners _ rfl rfl rfl (.inl ⟨hdue, rfl⟩)
    · obtain ⟨rfl, hread⟩ := remindRest_reads h
      exact .marked p owners _ rfl rfl rfl (.inr hread)
  | sending p owners marked =>
    unfold ReminderPhase.next at h
    dsimp only at h
    split at h
    · rename_i hmailer
      obtain ⟨rfl, hread⟩ := remindRest_reads h
      exact .sent p owners marked rfl hmailer rfl hread
    · rename_i hmailer
      cases h
      let counts : ReminderCounts := { p.counts with failed := p.counts.failed + 1 }
      exact .failed p { p with counts } owners marked rfl (Bool.eq_false_iff.mpr hmailer) rfl rfl rfl rfl
  | releasing p marked =>
    obtain ⟨rfl, hread⟩ := remindRest_reads h
    exact .released p marked rfl rfl hread

theorem reminders_ends (us : List ReminderPhase) (h : t.next b us = .ends b' answer) :
    ReminderStep b b' t none := by
  cases t with
  | begun call =>
    cases call with
    | remind today =>
      obtain ⟨rfl, -⟩ := remindRest_ends h
      exact .read rfl rfl (fun _ => rfl) (by simp)
    | change charges users mailer =>
      cases h
      exact .read rfl rfl (fun _ => rfl) (by simp)
  | reading p =>
    unfold ReminderPhase.next at h
    dsimp only at h
    split at h
    · obtain ⟨rfl, -⟩ := remindRest_ends h
      exact .read rfl rfl (fun _ => rfl) (by simp)
    · cases h
  | marking p owners =>
    unfold ReminderPhase.next at h
    dsimp only at h
    split at h
    · cases h
    · obtain ⟨rfl, -⟩ := remindRest_ends h
      exact .marked p owners _ rfl rfl rfl (.inr (by simp))
  | sending p owners marked =>
    unfold ReminderPhase.next at h
    dsimp only at h
    split at h
    · rename_i hmailer
      obtain ⟨rfl, -⟩ := remindRest_ends h
      exact .sent p owners marked rfl hmailer rfl (by simp)
    · cases h
  | releasing p marked =>
    obtain ⟨rfl, -⟩ := remindRest_ends h
    exact .released p marked rfl rfl (by simp)

@[simp] theorem mem_mark :
    m ∈ (b.mark chargeId kinds).marks ↔ m ∈ b.marks ∨ (m.chargeId = chargeId ∧ m.kind ∈ kinds) := by
  obtain ⟨id, kind⟩ := m
  simp [ReminderDb.mark, ReminderMark.mk.injEq, eq_comm, and_comm]

@[simp] theorem mem_unmark :
    m ∈ (b.unmark chargeId kinds).marks ↔ m ∈ b.marks ∧ ¬(m.chargeId = chargeId ∧ m.kind ∈ kinds) := by
  obtain ⟨id, kind⟩ := m
  simp [ReminderDb.unmark, ReminderMark.mk.injEq, eq_comm, and_comm]

theorem mem_unmarked : m.kind ∈ b.unmarked m.chargeId kinds ↔ m.kind ∈ kinds ∧ m ∉ b.marks := by
  simp [ReminderDb.unmarked]

theorem sent_of_mails (h : b'.mails = b.mails) : b'.sent = b.sent := by
  unfold ReminderDb.sent
  rw [h]

theorem sent_mail {owners : List String} :
    (b.mail m owners).sent = if b.mailer = true then b.sent ++ [m] else b.sent := by
  unfold ReminderDb.sent ReminderDb.mail
  dsimp only
  rw [List.filter_append, List.map_append]
  cases b.mailer <;> simp

theorem holds_of_isReading (h : t.isReading = true) (m : ReminderMark) : t.holds m = false := by
  cases t with
  | reading p => rfl
  | _ => cases h

theorem sound_of_isReading (h : t.isReading = true) : t.Sound b where
  held m hm := by
    rw [holds_of_isReading h m] at hm
    cases hm
  sending p owners marked ht := by
    subst ht
    cases h
  releasing p marked ht := by
    subst ht
    cases h

theorem holds_sending {p : Reminding} {owners : List String} :
    ReminderPhase.holds m (.sending p owners kinds) = true ↔ m.chargeId = p.charge.id ∧ m.kind ∈ kinds := by
  simp [ReminderPhase.holds]

theorem holds_releasing {p : Reminding} :
    ReminderPhase.holds m (.releasing p kinds) = true ↔ m.chargeId = p.charge.id ∧ m.kind ∈ kinds := by
  simp [ReminderPhase.holds]

/-- A statement keeps what is committed sound, and what other passes have marked. -/
theorem ReminderStep.keeps {t'' : Option ReminderPhase} (h : ReminderStep b b' t t'') (hb : b.Sound)
    (ht : t.Sound b) :
    b'.Sound ∧ ∀ u : ReminderPhase, u.Sound b → t.Apart u → u.Sound b' := by
  cases h with
  | read hmarks hmails =>
    have hsent := sent_of_mails hmails
    refine ⟨⟨hsent ▸ hb.once, fun m hm => ?_⟩, fun u hu _ => ⟨fun m hm => ?_, hu.sending, hu.releasing⟩⟩
    · rw [hmarks]
      exact hb.marked m (hsent ▸ hm)
    · rw [hmarks, hsent]
      exact hu.held m hm
  | marked p owners kinds _ _ hb' =>
    subst hb'
    refine ⟨⟨hb.once, fun m hm => mem_mark.mpr (.inl (hb.marked m hm))⟩,
      fun u hu _ => ⟨fun m hm => ?_, hu.sending, hu.releasing⟩⟩
    obtain ⟨hmark, hsent⟩ := hu.held m hm
    exact ⟨mem_mark.mpr (.inl hmark), hsent⟩
  | sent p owners kinds hphase hmailer hb' =>
    subst hphase hb'
    have hown : ReminderPhase.holds p.due (.sending p owners kinds) = true :=
      holds_sending.mpr ⟨rfl, ht.sending p owners kinds rfl⟩
    obtain ⟨hmark, hnew⟩ := ht.held _ hown
    have hsent : (b.mail p.due owners).sent = b.sent ++ [p.due] := by rw [sent_mail, if_pos hmailer]
    refine ⟨⟨?_, fun m hm => ?_⟩, fun u hu hX => ⟨fun m hm => ?_, hu.sending, hu.releasing⟩⟩
    · rw [hsent]
      exact hb.once.append (List.nodup_singleton _) (by simpa using hnew)
    · rw [hsent] at hm
      rcases List.mem_append.mp hm with hm | hm
      · exact hb.marked m hm
      · rw [List.mem_singleton.mp hm]
        exact hmark
    · obtain ⟨hmark, hold⟩ := hu.held m hm
      refine ⟨hmark, fun hm' => ?_⟩
      rw [hsent] at hm'
      rcases List.mem_append.mp hm' with hm' | hm'
      · exact hold hm'
      · -- the mark that has been mailed is of this pass, and of no other
        rw [List.mem_singleton.mp hm', hX _ hown] at hm
        cases hm
  | failed p p' owners kinds hphase hmailer hb' =>
    subst hphase hb'
    have hsent : (b.mail p.due owners).sent = b.sent := by
      rw [sent_mail, if_neg (by simp [hmailer])]
    refine ⟨⟨hsent ▸ hb.once, fun m hm => ?_⟩, fun u hu _ => ⟨fun m hm => ?_, hu.sending, hu.releasing⟩⟩
    · exact hb.marked m (hsent ▸ hm)
    · rw [hsent]
      exact hu.held m hm
  | released p kinds hphase hb' =>
    subst hphase hb'
    refine ⟨⟨hb.once, fun m hm => mem_unmark.mpr ⟨hb.marked m hm, fun hm' => ?_⟩⟩,
      fun u hu hX => ⟨fun m hm => ?_, hu.sending, hu.releasing⟩⟩
    · exact (ht.held m (holds_releasing.mpr hm')).2 hm
    · obtain ⟨hmark, hsent⟩ := hu.held m hm
      refine ⟨mem_unmark.mpr ⟨hmark, fun hm' => ?_⟩, hsent⟩
      rw [hX m (holds_releasing.mpr hm')] at hm
      cases hm

/-- Where the statement leaves the pass, the pass knows what it has marked, and no other has. -/
theorem ReminderStep.leaves (h : ReminderStep b b' t (some t')) (hb : b.Sound) (ht : t.Sound b) :
    t'.Sound b' ∧ ∀ u : ReminderPhase, u.Sound b → t.Apart u → t'.Apart u := by
  have hidle : ∀ {b' : ReminderDb}, (∀ u ∈ some t', u.isReading = true) →
      t'.Sound b' ∧ ∀ u : ReminderPhase, u.Sound b → t.Apart u → t'.Apart u := by
    intro b' hread
    have hread := hread t' rfl
    refine ⟨sound_of_isReading hread, fun u _ _ m hm => ?_⟩
    rw [holds_of_isReading hread m] at hm
    cases hm
  cases h with
  | read _ _ _ hread =>
    rcases hread t' rfl with hread | ⟨p, owners, rfl⟩
    · exact hidle fun u hu => Option.mem_some_iff.mp hu ▸ hread
    · exact ⟨⟨nofun, nofun, nofun⟩, fun u _ _ m hm => nomatch hm⟩
  | marked p owners kinds hphase hkinds hb' hnext =>
    subst hb'
    rcases hnext with ⟨hdue, ht'⟩ | hread
    · cases ht'
      have hfree : ∀ m, ReminderPhase.holds m (.sending p owners kinds) = true → m ∉ b.marks := by
        intro m hm
        obtain ⟨hid, hkind⟩ := holds_sending.mp hm
        rw [hkinds, ← hid] at hkind
        exact (mem_unmarked.mp hkind).2
      refine ⟨⟨fun m hm => ⟨?_, fun hsent => hfree m hm (hb.marked m hsent)⟩, ?_, nofun⟩,
        fun u hu _ m hm => Bool.eq_false_iff.mpr fun hheld => hfree m hm (hu.held m hheld).1⟩
      · exact mem_mark.mpr (.inr (holds_sending.mp hm))
      · intro p' owners' kinds' heq
        cases heq
        exact hdue
    · exact hidle hread
  | sent p owners kinds _ _ _ hread => exact hidle hread
  | failed p p' owners kinds hphase hmailer hb' hcharge htoday hnext =>
    subst hphase hb'
    cases hnext
    have hsame : ∀ m, ReminderPhase.holds m (.releasing p' kinds) =
        ReminderPhase.holds m (.sending p owners kinds) := by
      intro m
      simp [ReminderPhase.holds, hcharge]
    have hsent : (b.mail p.due owners).sent = b.sent := by
      rw [sent_mail, if_neg (by simp [hmailer])]
    refine ⟨⟨fun m hm => ?_, nofun, ?_⟩, fun u _ hX m hm => hX m (hsame m ▸ hm)⟩
    · rw [hsent]
      exact ht.held m (hsame m ▸ hm)
    · intro p'' kinds' heq
      cases heq
      have hdue : p'.due = p.due := by simp [Reminding.due, hcharge, htoday]
      rw [hdue]
      exact ht.sending p owners kinds rfl
  | released p kinds _ _ hread => exact hidle hread

/-- A mark that is not set is set by a pass that comes to mark it. -/
theorem ReminderStep.not_mem {t'' : Option ReminderPhase} (h : ReminderStep b b' t t'')
    (ht : t.marks m = false) (hm : m ∉ b.marks) : m ∉ b'.marks := by
  cases h with
  | read hmarks => rwa [hmarks]
  | marked p owners kinds hphase hkinds hb' =>
    subst hphase hb'
    rw [mem_mark, not_or]
    refine ⟨hm, fun ⟨hid, hkind⟩ => ?_⟩
    rw [hkinds, ← hid] at hkind
    have hmarks : ReminderPhase.marks m (.marking p owners) = true := by
      simp [ReminderPhase.marks, hid, (mem_unmarked.mp hkind).1]
    rw [hmarks] at ht
    cases ht
  | sent p owners kinds _ _ hb' =>
    subst hb'
    exact hm
  | failed p p' owners kinds _ _ hb' =>
    subst hb'
    exact hm
  | released p kinds _ hb' =>
    subst hb'
    exact fun hm' => hm (mem_unmark.mp hm').1

end Statements

/-- What the passes keep beside each other. -/
theorem remindersRule : reminders.Rule (fun _ => True) (fun _ _ _ => True) ReminderDb.Sound
    (fun b t => t.Sound b) ReminderPhase.Apart where
  symm t u h m hm := Bool.eq_false_iff.mpr fun ht => by simp [h m ht] at hm
  start b call _ _ := ⟨⟨nofun, nofun, nofun⟩, fun u _ m hm => nomatch hm⟩
  goes b us t hb ht hus _ b' t' answer hnext := by
    have hstep := reminders_goes us hnext
    obtain ⟨hb', hothers⟩ := hstep.keeps hb ht
    obtain ⟨ht', hapart⟩ := hstep.leaves hb ht
    exact ⟨hb', ht', fun u hu =>
      ⟨hothers u (hus u hu).1 (hus u hu).2, hapart u (hus u hu).1 (hus u hu).2⟩⟩
  ends b us t hb ht hus _ b' answer hnext := by
    obtain ⟨hb', hothers⟩ := (reminders_ends us hnext).keeps hb ht
    exact ⟨hb', fun u hu => hothers u (hus u hu).1 (hus u hu).2⟩

/-! ## Runs -/

/-- What the passes come to from the first of all on. -/
def remindRun (charges : List DueCharge) (users : List Contact) (mailer : Bool)
    (moves : List (Move ReminderCall)) : Sessions ReminderDb ReminderPhase :=
  reminders.machine.run (Sessions.start (.fresh charges users mailer)) moves

/-- A statement that is not of a pass that comes to mark this reminder. -/
def LeavesUnmarked (m : ReminderMark) : Sessions ReminderDb ReminderPhase → Move ReminderCall → Prop :=
  Protocol.Allowed (fun _ => True) fun _ _ t => t.marks m = false

instance (m : ReminderMark) (w : Sessions ReminderDb ReminderPhase) (e : Move ReminderCall) :
    Decidable (LeavesUnmarked m w e) :=
  inferInstanceAs (Decidable (Protocol.Allowed (fun _ => True) (fun _ _ t => t.marks m = false) w e))

/-- Where a pass stands before it has marked a charge. -/
def ReminderPhase.Faces (today : Day) (charge : DueCharge) : ReminderPhase → Prop
  | .reading p | .marking p _ => p.today = today ∧ (p.charge = charge ∨ charge ∈ p.left)
  | .sending p _ _ | .releasing p _ => p.today = today ∧ charge ∈ p.left
  | .begun _ => False

/-- A pass has come to the charge: it finds nobody to mail, or marks the reminder that is due. -/
def ReminderPhase.ComesTo (today : Day) (charge : DueCharge) (b : ReminderDb) : ReminderPhase → Prop
  | .reading p => p.today = today ∧ p.charge = charge ∧ b.recipients charge.restaurantId = []
  | .marking p _ => p.today = today ∧ p.charge = charge
  | _ => False

section Runs

variable {charges : List DueCharge} {users : List Contact} {mailer : Bool}
  {moves before between : List (Move ReminderCall)} {w : Sessions ReminderDb ReminderPhase}
  {m : ReminderMark} {b : ReminderDb} {t : ReminderPhase} {us : List ReminderPhase} {id first : Nat}
  {p q : Reminding} {today : Day} {charge : DueCharge}

theorem remindRun_holds :
    Protocol.Holds ReminderDb.Sound (fun b t => t.Sound b) ReminderPhase.Apart
      (remindRun charges users mailer moves) :=
  remindersRule.run (.start ⟨List.nodup_nil, fun _ hm => absurd hm List.not_mem_nil⟩)
    (Protocol.every_allowed fun _ _ _ => trivial)

/-- A mark that is not set stays so while no pass comes to it. -/
theorem unmarked_stays (h : m ∉ w.committed.marks)
    (hleaves : reminders.machine.Every (LeavesUnmarked m) w moves) :
    m ∉ (reminders.machine.run w moves).committed.marks := by
  refine Machine.invariant (I := fun w => m ∉ w.committed.marks) (fun w e hm he => ?_) h hleaves
  rcases Protocol.move_cases (p := reminders) w e with ⟨r, hfind, rfl, hcommitted, -⟩ | ⟨hcommitted, -⟩
  · rw [hcommitted]
    have hmarks := (Protocol.allowed_go hfind).mp he
    cases hnext : reminders.next w.committed (w.others r.id) r.state with
    | waits => exact hm
    | goes b' t' answer => exact (reminders_goes (w.others r.id) hnext).not_mem hmarks hm
    | ends b' answer => exact (reminders_ends (w.others r.id) hnext).not_mem hmarks hm
  · rwa [hcommitted]

/-- A pass whose mail has failed takes the marks back that it has set. -/
theorem released {kinds : List ReminderKind}
    (hfind : w.running.find? first = some ⟨first, .releasing p kinds⟩)
    (hm : ReminderPhase.holds m (.releasing p kinds) = true) :
    m ∉ (reminders.machine.step w (.go first)).1.committed.marks := by
  have hmem : m ∉ (w.committed.unmark p.charge.id kinds).marks := by
    rw [mem_unmark]
    exact fun h => h.2 (holds_releasing.mp hm)
  have hcommitted : (reminders.machine.step w (.go first)).1.committed =
      w.committed.unmark p.charge.id kinds := by
    rw [Protocol.committed_go hfind]
    change (remindRest _ _ _ p.left).committed _ = _
    cases p.left <;> rfl
  rwa [hcommitted]

/-- A pass that comes to mark a reminder that is not marked goes on to mail it. -/
theorem sends {owners : List String} (hfind : w.running.find? id = some ⟨id, .marking q owners⟩)
    (hfree : q.due ∉ w.committed.marks) : ∃ kinds,
      (reminders.machine.step w (.go id)).1.running.find? id = some ⟨id, .sending q owners kinds⟩ := by
  have hdue : q.due.kind ∈ w.committed.unmarked q.due.chargeId q.due.kind.toMark :=
    mem_unmarked.mpr ⟨q.due.kind.mem_toMark, hfree⟩
  have hnext : reminders.next w.committed (w.others id) (.marking q owners) =
      .goes (w.committed.mark q.charge.id (w.committed.unmarked q.charge.id q.due.kind.toMark))
        (.sending q owners (w.committed.unmarked q.charge.id q.due.kind.toMark)) [] := if_pos hdue
  exact ⟨_, Protocol.running_goes hfind hnext⟩

/-- The charges that are left are faced. -/
theorem remindRest_faces (b : ReminderDb) (today : Day) (counts : ReminderCounts)
    {left : List DueCharge} (h : charge ∈ left) :
    ∃ t', remindRest b today counts left = .goes b t' [] ∧ t'.Faces today charge := by
  cases left with
  | nil => cases h
  | cons c left =>
    refine ⟨_, rfl, rfl, ?_⟩
    rcases List.mem_cons.mp h with rfl | h
    · exact .inl rfl
    · exact .inr h

/-- A pass does not leave out a charge that it faces. -/
theorem faces_goes (us : List ReminderPhase) (h : t.Faces today charge)
    (hcome : ¬t.ComesTo today charge b) :
    ∃ b' t' answer, t.next b us = .goes b' t' answer ∧ t'.Faces today charge := by
  have hrest : ∀ (b' : ReminderDb) (counts : ReminderCounts) (left : List DueCharge), charge ∈ left →
      ∃ b₁ t' answer, remindRest b' today counts left = .goes b₁ t' answer ∧ t'.Faces today charge := by
    intro b' counts left hleft
    obtain ⟨t', hgoes, ht'⟩ := remindRest_faces b' today counts hleft
    exact ⟨b', t', [], hgoes, ht'⟩
  cases t with
  | begun call => exact absurd h id
  | reading p =>
    obtain ⟨rfl, hcharge⟩ := h
    unfold ReminderPhase.next
    dsimp only
    split
    · rename_i hnobody
      refine hrest _ _ _ (hcharge.resolve_left ?_)
      rintro rfl
      exact hcome ⟨rfl, rfl, hnobody⟩
    · exact ⟨_, _, _, rfl, rfl, hcharge⟩
  | marking p owners =>
    obtain ⟨rfl, hcharge⟩ := h
    have hleft : charge ∈ p.left := hcharge.resolve_left fun heq => hcome ⟨rfl, heq⟩
    unfold ReminderPhase.next
    dsimp only
    split
    · exact ⟨_, _, _, rfl, rfl, hleft⟩
    · exact hrest _ _ _ hleft
  | sending p owners kinds =>
    obtain ⟨rfl, hleft⟩ := h
    unfold ReminderPhase.next
    dsimp only
    split
    · exact hrest _ _ _ hleft
    · exact ⟨_, _, _, rfl, rfl, hleft⟩
  | releasing p kinds =>
    obtain ⟨rfl, hleft⟩ := h
    exact hrest _ _ _ hleft

/-- A pass that is over has come to every charge that was open when it began. -/
theorem comes_to_open (hfind : w.running.find? id = some ⟨id, .begun (.remind today)⟩)
    (hopen : charge ∈ w.committed.openCharges) (habort : .abort id ∉ moves)
    (hover : (reminders.machine.run w (.go id :: moves)).running.find? id = none) :
    ∃ before after t, moves = before ++ .go id :: after ∧
      (reminders.machine.run w (.go id :: before)).running.find? id = some ⟨id, t⟩ ∧
      t.ComesTo today charge (reminders.machine.run w (.go id :: before)).committed := by
  obtain ⟨t, hgoes, ht⟩ := remindRest_faces w.committed today ⟨0, 0, 0⟩ hopen
  exact Protocol.comes_to (K := ReminderPhase.Faces today charge)
    (Q := fun b t => t.ComesTo today charge b)
    (fun b us t ht hcome => .inr (faces_goes us ht hcome))
    (Protocol.running_goes hfind hgoes) ht habort hover

/-- No reminder is sent twice. A pass whose mail failed takes its mark back with the others that it has
set, and each of them goes out in the pass that comes to mark it next, when that is one in which it is
due. A pass that begins while a charge is open and is over has come to it with the reminder that is due
on its day, and found nobody to mail or come to mark it. -/
theorem reminded_once_and_again (charges : List DueCharge) (users : List Contact) (mailer : Bool)
    (moves : List (Move ReminderCall)) : let w := remindRun charges users mailer moves
    w.committed.sent.Nodup ∧
    (∀ (first : Nat) (p : Reminding) (kinds : List ReminderKind),
      w.running.find? first = some ⟨first, .releasing p kinds⟩ →
      ReminderPhase.holds p.due (.releasing p kinds) = true ∧
      ∀ (m : ReminderMark) (between : List (Move ReminderCall)) (id : Nat) (q : Reminding)
          (owners : List String), ReminderPhase.holds m (.releasing p kinds) = true →
        reminders.machine.Every (LeavesUnmarked m) (reminders.machine.step w (.go first)).1 between →
        (reminders.machine.run w (.go first :: between)).running.find? id =
          some ⟨id, .marking q owners⟩ → q.due = m →
        ∃ kinds', (reminders.machine.step (reminders.machine.run w (.go first :: between))
          (.go id)).1.running.find? id = some ⟨id, .sending q owners kinds'⟩) ∧
    (∀ (id : Nat) (today : Day) (charge : DueCharge) (later : List (Move ReminderCall)),
      w.running.find? id = some ⟨id, .begun (.remind today)⟩ →
      charge ∈ w.committed.openCharges → .abort id ∉ later →
      (reminders.machine.run w (.go id :: later)).running.find? id = none →
      ∃ on rest t, later = on ++ .go id :: rest ∧
        (reminders.machine.run w (.go id :: on)).running.find? id = some ⟨id, t⟩ ∧
        t.ComesTo today charge (reminders.machine.run w (.go id :: on)).committed) := by
  intro w
  have hw : Protocol.Holds ReminderDb.Sound (fun b t => t.Sound b) ReminderPhase.Apart w :=
    remindRun_holds
  refine ⟨hw.committed.once, fun first p kinds hfirst => ⟨?_, ?_⟩,
    fun id today charge later => comes_to_open⟩
  · exact holds_releasing.mpr ⟨rfl, (hw.session _ (Table.find?_mem hfirst)).releasing p kinds rfl⟩
  · rintro m between id q owners hm hbetween hid rfl
    have hfree := unmarked_stays (released hfirst hm) hbetween
    exact sends hid hfree

end Runs

/-! ## A weaker reminder -/

/-- The pass at a charge whose reminder it has not mailed. -/
def ReminderPhase.facing : ReminderPhase → Option Reminding
  | .reading p | .marking p _ => some p
  | _ => none

/-- The charge is open, and its due reminder has failed, was not sent, and is held by no other pass. -/
def Reminding.Owed (w : Sessions ReminderDb ReminderPhase) (id : Nat) (p : Reminding) : Prop :=
  p.charge ∈ w.committed.openCharges ∧ w.committed.Failed p.due ∧ p.due ∉ w.committed.sent ∧
    ∀ u ∈ w.others id, u.holds p.due = false

instance (w : Sessions ReminderDb ReminderPhase) (id : Nat) (p : Reminding) : Decidable (p.Owed w id) :=
  inferInstanceAs (Decidable (_ ∧ _ ∧ _ ∧ ∀ u ∈ w.others id, u.holds p.due = false))

/-- The pass goes on to mail a reminder that it owes. -/
def ResendsAt (w : Sessions ReminderDb ReminderPhase) (id : Nat) (p : Reminding) : Prop :=
  p.Owed w id → ∃ r ∈ (reminders.machine.step w (.go id)).1.running.find? id, r.state.attends p = true

instance (w : Sessions ReminderDb ReminderPhase) (id : Nat) (p : Reminding) : Decidable (ResendsAt w id p) :=
  inferInstanceAs (Decidable (_ → ∃ r ∈ _, ReminderPhase.attends p (Session.state r) = true))

/-- A pass that comes to a charge mails what it owes. -/
def Resends (w : Sessions ReminderDb ReminderPhase) : Move ReminderCall → Prop
  | .go id => ∀ r ∈ w.running.find? id, ∀ p ∈ r.state.facing, ResendsAt w id p
  | _ => True

instance (w : Sessions ReminderDb ReminderPhase) : ∀ m, Decidable (Resends w m)
  | .go id => inferInstanceAs (Decidable (∀ r ∈ w.running.find? id, ∀ p ∈ r.state.facing, ResendsAt w id p))
  | .start _ _ => isTrue trivial
  | .abort _ => isTrue trivial

def dueToday : DueCharge := ⟨1, 7, ⟨2026 * 12 + 9, 5⟩, .open⟩

def dueOwner : Contact := ⟨7, "OWNER", true, some "ana@example.com"⟩

/-- Two passes of the day on which a charge is due, the mail of the first of which fails, and one of the
day after, which mails that the charge is overdue and marks the weaker reminder with it. -/
def overtaken : List (Move ReminderCall) :=
  [.start 1 (.remind dueToday.dueOn), .go 1, .start 2 (.remind dueToday.dueOn), .go 2,
    .go 1, .go 1, .go 1, .go 1, .start 9 (.change [dueToday] [dueOwner] true), .go 9,
    .start 3 (.remind dueToday.dueOn.next), .go 3, .go 3, .go 3, .go 3, .go 2]

/-- The second pass does not mail what the first one could not; nor does a pass mail anything when there
is no owner any more. -/
theorem weaker_not_resent :
    ¬reminders.machine.Every Resends (Sessions.start (.fresh [dueToday] [dueOwner] false))
      (overtaken ++ [.go 2]) ∧
    ¬reminders.machine.Every Resends (Sessions.start (.fresh [dueToday] [dueOwner] false))
      [.start 1 (.remind dueToday.dueOn), .go 1, .go 1, .go 1, .go 1, .go 1,
        .start 9 (.change [dueToday] [] true), .go 9, .start 2 (.remind dueToday.dueOn), .go 2, .go 2] := by
  decide +kernel

/-- The mail of the charge has failed. -/
def unmailed : List (Move ReminderCall) := [.start 1 (.remind dueToday.dueOn), .go 1, .go 1, .go 1, .go 1]

/-- The mailer is repaired, and the next pass comes to the charge. -/
def nextPass : List (Move ReminderCall) :=
  [.start 9 (.change [dueToday] [dueOwner] true), .go 9, .start 2 (.remind dueToday.dueOn), .go 2, .go 2]

def atDueToday : Reminding := ⟨dueToday.dueOn, dueToday, [], ⟨0, 0, 0⟩⟩

theorem unmailed_at : (remindRun [dueToday] [dueOwner] false unmailed).running.find? 1 =
    some ⟨1, .releasing { atDueToday with counts := ⟨0, 1, 0⟩ } [.issued]⟩ := rfl

theorem nextPass_at : (reminders.machine.run (remindRun [dueToday] [dueOwner] false unmailed)
    (.go 1 :: nextPass)).running.find? 2 = some ⟨2, .marking atDueToday ["ana@example.com"]⟩ := rfl

/-- The next pass mails what failed, and the pass that failed had come to the charge. -/
theorem issued_resent :
    (∃ kinds, (reminders.machine.step
      (reminders.machine.run (remindRun [dueToday] [dueOwner] false unmailed) (.go 1 :: nextPass))
      (.go 2)).1.running.find? 2 = some ⟨2, .sending atDueToday ["ana@example.com"] kinds⟩) ∧
    ∃ on rest t, [.go 1, .go 1, .go 1, .go 1] = on ++ .go 1 :: rest ∧
      (reminders.machine.run (remindRun [dueToday] [dueOwner] false [.start 1 (.remind dueToday.dueOn)])
        (.go 1 :: on)).running.find? 1 = some ⟨1, t⟩ ∧
      t.ComesTo dueToday.dueOn dueToday (reminders.machine.run
        (remindRun [dueToday] [dueOwner] false [.start 1 (.remind dueToday.dueOn)])
        (.go 1 :: on)).committed :=
  ⟨((reminded_once_and_again [dueToday] [dueOwner] false unmailed).2.1 1 _ _ unmailed_at).2
      atDueToday.due nextPass 2 atDueToday _ (by decide) (by decide +kernel) nextPass_at rfl,
    (reminded_once_and_again [dueToday] [dueOwner] false [.start 1 (.remind dueToday.dueOn)]).2.2
      1 dueToday.dueOn dueToday _ rfl (by decide) (by simp) rfl⟩

end Splite
