import Splite.Lib.Machine
import Splite.Lib.Table

/-!
# Sessions that interleave statement by statement

A `Protocol` says what the next statement of a session comes to, given what is committed and the
sessions that run beside it. Its machine runs any number of sessions in any order, and any of them may
be broken off between two statements; what a session has written and not committed is in its own
state.

* `Protocol.Rule`: what a statement has to keep. An invariant of what is committed, an assertion of
  each session about it, and a relation of any two sessions.
* `Protocol.Rule.step`, `Protocol.Rule.run`: then every interleaving keeps them.
* `Protocol.Rule.every`: and what follows from them at a statement holds all along a run.
* `Protocol.move_cases`, `Protocol.iff_allowed`: a move does what a statement does, or nothing.
* `Protocol.comes_to`: what a session that is over has come to.
-/

/-- What the next statement of a session comes to. -/
inductive Advance (σ τ ω : Type) where
  /-- It waits for another session. -/
  | waits
  /-- The session goes on as `t`, and `s` is committed. -/
  | goes (s : σ) (t : τ) (answer : List ω)
  /-- The session is over, and `s` is committed. -/
  | ends (s : σ) (answer : List ω)

/-- The same statement, of sessions among others. -/
def Advance.map {σ τ υ ω : Type} (f : τ → υ) : Advance σ τ ω → Advance σ υ ω
  | .waits => .waits
  | .goes s t answer => .goes s (f t) answer
  | .ends s answer => .ends s answer

theorem Advance.map_goes {σ τ υ ω : Type} {f : τ → υ} {a : Advance σ τ ω} {s : σ} {u : υ}
    {answer : List ω} : a.map f = .goes s u answer ↔ ∃ t, a = .goes s t answer ∧ f t = u := by
  cases a with
  | waits => simp [Advance.map]
  | goes s' t answer' =>
    simp only [Advance.map, Advance.goes.injEq]
    constructor
    · rintro ⟨rfl, rfl, rfl⟩
      exact ⟨t, ⟨rfl, rfl, rfl⟩, rfl⟩
    · rintro ⟨_, ⟨rfl, rfl, rfl⟩, rfl⟩
      exact ⟨rfl, rfl, rfl⟩
  | ends s' answer' => simp [Advance.map]

theorem Advance.map_ends {σ τ υ ω : Type} {f : τ → υ} {a : Advance σ τ ω} {s : σ}
    {answer : List ω} : a.map f = .ends s answer ↔ a = .ends s answer := by
  cases a <;> simp [Advance.map]

/-- What is committed after the statement. -/
def Advance.committed {σ τ ω : Type} (s : σ) : Advance σ τ ω → σ
  | .waits => s
  | .goes s' _ _ => s'
  | .ends s' _ => s'

/-- What the statement answers. -/
def Advance.answer {σ τ ω : Type} : Advance σ τ ω → List ω
  | .waits => []
  | .goes _ _ answer => answer
  | .ends _ answer => answer

/-- Sessions in states `τ` over what is committed `σ`, begun by `ι`, with answers `ω`. -/
structure Protocol (σ τ ι ω : Type) where
  start : ι → τ
  next : σ → List τ → τ → Advance σ τ ω

structure Session (τ : Type) where
  id : Nat
  state : τ

instance {τ : Type} : Keyed (Session τ) Nat := ⟨Session.id⟩

/-- What is committed, and the sessions that run. -/
structure Sessions (σ τ : Type) where
  committed : σ
  running : Table (Session τ)

/-- Nothing runs yet. -/
def Sessions.start {σ τ : Type} (s : σ) : Sessions σ τ := ⟨s, ∅⟩

/-- One session runs, and no other. -/
def Sessions.alone {σ τ : Type} (s : σ) (id : Nat) (t : τ) : Sessions σ τ :=
  ⟨s, ⟨[⟨id, t⟩], List.nodup_singleton _⟩⟩

/-- The sessions beside the one with this id. -/
def Sessions.others {σ τ : Type} (w : Sessions σ τ) (id : Nat) : List τ :=
  (w.running.rows.filter fun r => r.id ≠ id).map Session.state

/-- A session is begun, goes on by one statement, or is broken off. -/
inductive Move (ι : Type) where
  | start (id : Nat) (input : ι)
  | go (id : Nat)
  | abort (id : Nat)

/-- The same move with another input. -/
def Move.map {ι κ : Type} (f : ι → κ) : Move ι → Move κ
  | .start id input => .start id (f input)
  | .go id => .go id
  | .abort id => .abort id

namespace Protocol

variable {σ τ ι ω : Type}

def step (p : Protocol σ τ ι ω) (w : Sessions σ τ) : Move ι → Sessions σ τ × List ω
  | .start id input =>
    match w.running.insert? ⟨id, p.start input⟩ with
    | some running => ({ w with running }, [])
    | none => (w, [])
  | .go id =>
    match w.running.find? id with
    | none => (w, [])
    | some r =>
      match p.next w.committed (w.others id) r.state with
      | .waits => (w, [])
      | .goes s t answer =>
        ({ committed := s
           running := w.running.update id (fun r => { r with state := t }) fun _ => rfl }, answer)
      | .ends s answer =>
        ({ committed := s, running := w.running.deleteWhere fun r => r.id = id }, answer)
  | .abort id => ({ w with running := w.running.deleteWhere fun r => r.id = id }, [])

/-- The interleavings of a protocol, as a machine. -/
def machine (p : Protocol σ τ ι ω) : Machine (Sessions σ τ) (Move ι) ω := ⟨p.step⟩

/-- The sessions that begin satisfy `S`, and the statements that run satisfy `C`. -/
def Allowed (S : ι → Prop) (C : σ → List τ → τ → Prop) (w : Sessions σ τ) : Move ι → Prop
  | .start _ input => S input
  | .go id => ∀ r ∈ w.running.find? id, C w.committed (w.others id) r.state
  | .abort _ => True

instance (S : ι → Prop) (C : σ → List τ → τ → Prop) (w : Sessions σ τ) [∀ input, Decidable (S input)]
    [∀ s us t, Decidable (C s us t)] : ∀ m, Decidable (Allowed S C w m)
  | .start _ input => inferInstanceAs (Decidable (S input))
  | .go id => inferInstanceAs (Decidable (∀ r ∈ w.running.find? id, C w.committed (w.others id) r.state))
  | .abort _ => isTrue trivial

variable {p : Protocol σ τ ι ω} {S : ι → Prop} {C : σ → List τ → τ → Prop}
  {I : σ → Prop} {J : σ → τ → Prop} {X : τ → τ → Prop} {w : Sessions σ τ}

section Alone

variable {s s' : σ} {t t' : τ} {id : Nat} {input : ι} {answer : List ω}

theorem start_alone :
    p.machine.step (Sessions.start s) (.start id input) = (.alone s id (p.start input), []) := rfl

theorem others_alone : (Sessions.alone s id t).others id = [] := by
  simp [Sessions.alone, Sessions.others]

theorem find?_alone : (Sessions.alone s id t).running.find? id = some ⟨id, t⟩ := by
  simp [Sessions.alone, Table.find?, Keyed.key]

theorem go_alone_goes (h : p.next s [] t = .goes s' t' answer) :
    (p.machine.step (Sessions.alone s id t) (.go id)).1 = .alone s' id t' := by
  change (p.step (Sessions.alone s id t) (.go id)).1 = _
  unfold step
  simp only [find?_alone, others_alone]
  rw [show (Sessions.alone s id t).committed = s from rfl, h]
  simp [Sessions.alone, Table.update, Table.updateWhere, Keyed.key]

theorem go_alone_ends (h : p.next s [] t = .ends s' answer) :
    (p.machine.step (Sessions.alone s id t) (.go id)).1 = Sessions.start s' := by
  change (p.step (Sessions.alone s id t) (.go id)).1 = _
  unfold step
  simp only [find?_alone, others_alone]
  rw [show (Sessions.alone s id t).committed = s from rfl, h]
  simp [Sessions.alone, Sessions.start, Table.deleteWhere]
  rfl

end Alone

section Committed

@[simp] theorem committed_start {id : Nat} {input : ι} :
    (p.machine.step w (.start id input)).1.committed = w.committed := by
  change (p.step w (.start id input)).1.committed = w.committed
  unfold step
  dsimp only
  split <;> rfl

@[simp] theorem committed_abort {id : Nat} :
    (p.machine.step w (.abort id)).1.committed = w.committed := rfl

theorem committed_go_none {id : Nat} (h : w.running.find? id = none) :
    (p.machine.step w (.go id)).1.committed = w.committed := by
  change (p.step w (.go id)).1.committed = w.committed
  unfold step
  simp only [h]

theorem committed_go {id : Nat} {r : Session τ} (h : w.running.find? id = some r) :
    (p.machine.step w (.go id)).1.committed =
      (p.next w.committed (w.others id) r.state).committed w.committed := by
  change (p.step w (.go id)).1.committed = _
  unfold step
  simp only [h]
  cases p.next w.committed (w.others id) r.state <;> rfl

theorem answer_go {id : Nat} {r : Session τ} (h : w.running.find? id = some r) :
    (p.machine.step w (.go id)).2 = (p.next w.committed (w.others id) r.state).answer := by
  change (p.step w (.go id)).2 = _
  unfold step
  simp only [h]
  cases p.next w.committed (w.others id) r.state <;> rfl

/-- A session that waits changes nothing. -/
theorem step_waits {id : Nat} {r : Session τ} (h : w.running.find? id = some r)
    (hnext : p.next w.committed (w.others id) r.state = .waits) : p.machine.step w (.go id) = (w, []) := by
  change p.step w (.go id) = _
  unfold step
  simp only [h, hnext]

theorem running_goes {id : Nat} {r : Session τ} {s : σ} {t : τ} {answer : List ω}
    (h : w.running.find? id = some r)
    (hnext : p.next w.committed (w.others id) r.state = .goes s t answer) :
    (p.machine.step w (.go id)).1.running.find? id = some ⟨id, t⟩ := by
  change (p.step w (.go id)).1.running.find? id = _
  unfold step
  simp only [h, hnext]
  obtain rfl : r.id = id := Table.find?_key h
  exact Table.find?_update_self (fun r => { r with state := t }) (fun _ => rfl) h

/-- A session that is over does not run. -/
theorem running_ends {id : Nat} {r : Session τ} {s : σ} {answer : List ω}
    (h : w.running.find? id = some r) (hnext : p.next w.committed (w.others id) r.state = .ends s answer) :
    (p.machine.step w (.go id)).1.running.find? id = none := by
  change (p.step w (.go id)).1.running.find? id = none
  unfold step
  simp only [h, hnext]
  refine Table.find?_eq_none.mpr fun r' hr' hkey => ?_
  have := (Table.mem_deleteWhere.mp hr').2
  simp only [decide_eq_false_iff_not] at this
  exact this hkey

/-- A session that neither moves nor is broken off stays where it is. -/
theorem running_idle {m : Move ι} {id : Nat} {r : Session τ} (hgo : m ≠ .go id) (habort : m ≠ .abort id)
    (h : w.running.find? id = some r) : (p.machine.step w m).1.running.find? id = some r := by
  change (p.step w m).1.running.find? id = some r
  have hid : r.id = id := Table.find?_key h
  cases m with
  | start id' input =>
    unfold step
    dsimp only
    split
    · rename_i running hins
      have hnew := (Table.insert?_eq_some.mp hins).1
      rw [Table.find?_insert? hins, if_neg, h]
      rintro rfl
      exact hnew r (Table.find?_mem h) hid
    · exact h
  | go id' =>
    have hne : id ≠ id' := fun heq => hgo (heq ▸ rfl)
    unfold step
    dsimp only
    split
    · exact h
    · split
      · exact h
      · rw [Table.find?_update, if_neg hne, h]
      · rw [Table.find?_deleteWhere h, if_neg]
        simpa [hid] using hne
  | abort id' =>
    have hne : id ≠ id' := fun heq => habort (heq ▸ rfl)
    unfold step
    rw [Table.find?_deleteWhere h, if_neg]
    simpa [hid] using hne

/-- A session that has something to do, and cannot be over without having done it, has come to do it once
it is over. -/
theorem comes_to {K : τ → Prop} {Q : σ → τ → Prop}
    (hnext : ∀ s us t, K t → ¬Q s t →
      p.next s us t = .waits ∨ ∃ s' t' answer, p.next s us t = .goes s' t' answer ∧ K t')
    {id : Nat} {t : τ} {moves : List (Move ι)} (hfind : w.running.find? id = some ⟨id, t⟩) (ht : K t)
    (habort : .abort id ∉ moves) (hover : (p.machine.run w moves).running.find? id = none) :
    ∃ before after t', moves = before ++ .go id :: after ∧
      (p.machine.run w before).running.find? id = some ⟨id, t'⟩ ∧
      Q (p.machine.run w before).committed t' := by
  induction moves generalizing w t with
  | nil => cases hfind.symm.trans hover
  | cons m moves ih =>
    have hrest : .abort id ∉ moves := fun h => habort (List.mem_cons_of_mem _ h)
    have hlater : ∀ t', (p.machine.step w m).1.running.find? id = some ⟨id, t'⟩ → K t' →
        ∃ before after t'', m :: moves = before ++ .go id :: after ∧
          (p.machine.run w before).running.find? id = some ⟨id, t''⟩ ∧
          Q (p.machine.run w before).committed t'' := by
      intro t' hfind' ht'
      obtain ⟨before, after, t'', rfl, h⟩ := ih hfind' ht' hrest hover
      exact ⟨m :: before, after, t'', rfl, h⟩
    by_cases hm : m = .go id
    · subst hm
      by_cases hQ : Q w.committed t
      · exact ⟨[], moves, t, rfl, hfind, hQ⟩
      · rcases hnext w.committed (w.others id) t ht hQ with hwaits | ⟨s', t', answer, hgoes, ht'⟩
        · refine hlater t ?_ ht
          rw [step_waits hfind hwaits]
          exact hfind
        · exact hlater t' (running_goes hfind hgoes) ht'
    · exact hlater t (running_idle hm (fun heq => habort (heq ▸ List.mem_cons_self)) hfind) ht

/-- Only a statement of a session that runs answers anything. -/
theorem answer_mem {m : Move ι} {o : ω} (h : o ∈ (p.machine.step w m).2) :
    ∃ id r, m = .go id ∧ w.running.find? id = some r ∧
      o ∈ (p.next w.committed (w.others id) r.state).answer := by
  cases m with
  | start id input =>
    change o ∈ (p.step w (.start id input)).2 at h
    unfold step at h
    dsimp only at h
    split at h <;> cases h
  | go id =>
    cases hfind : w.running.find? id with
    | none =>
      change o ∈ (p.step w (.go id)).2 at h
      unfold step at h
      simp only [hfind] at h
      cases h
    | some r => exact ⟨id, r, rfl, hfind, answer_go hfind ▸ h⟩
  | abort id => cases h

end Committed

theorem allowed_go {id : Nat} {r : Session τ} (h : w.running.find? id = some r) :
    Allowed S C w (.go id) ↔ C w.committed (w.others id) r.state := by
  simp [Allowed, h]

theorem allowed_go_none {id : Nat} (h : w.running.find? id = none) : Allowed S C w (.go id) := by
  simp [Allowed, h]

/-- A move does what a statement of a session that runs does, or nothing. -/
theorem move_cases (w : Sessions σ τ) (m : Move ι) :
    (∃ r, w.running.find? r.id = some r ∧ m = .go r.id ∧
      (p.machine.step w m).1.committed =
        (p.next w.committed (w.others r.id) r.state).committed w.committed ∧
      (p.machine.step w m).2 = (p.next w.committed (w.others r.id) r.state).answer) ∨
    (p.machine.step w m).1.committed = w.committed ∧ (p.machine.step w m).2 = [] ∧
      ∀ C : σ → List τ → τ → Prop, Allowed (fun _ => True) C w m := by
  by_cases hgo : ∃ id r, m = .go id ∧ w.running.find? id = some r
  · obtain ⟨id, r, rfl, hfind⟩ := hgo
    obtain rfl : r.id = id := Table.find?_key hfind
    exact .inl ⟨r, hfind, rfl, committed_go hfind, answer_go hfind⟩
  · have hanswer : (p.machine.step w m).2 = [] := by
      refine List.eq_nil_iff_forall_not_mem.mpr fun o ho => ?_
      obtain ⟨id, r, hm, hfind, -⟩ := answer_mem ho
      exact hgo ⟨id, r, hm, hfind⟩
    cases m with
    | start id input => exact .inr ⟨committed_start, hanswer, fun _ => trivial⟩
    | abort id => exact .inr ⟨committed_abort, hanswer, fun _ => trivial⟩
    | go id =>
      have hnone : w.running.find? id = none := by
        by_contra hne
        obtain ⟨r, hr⟩ := Option.ne_none_iff_exists'.mp hne
        exact hgo ⟨id, r, rfl, hr⟩
      exact .inr ⟨committed_go_none hnone, hanswer, fun _ => allowed_go_none hnone⟩

/-- What a move that does nothing keeps, and a statement keeps exactly when it may run, any move keeps
exactly when it is allowed. -/
theorem iff_allowed {P : Move ι → Prop}
    (hidle : ∀ m, (p.machine.step w m).1.committed = w.committed → (p.machine.step w m).2 = [] → P m)
    (hgo : ∀ r, w.running.find? r.id = some r →
      (P (.go r.id) ↔ C w.committed (w.others r.id) r.state)) (m : Move ι) :
    P m ↔ Allowed (fun _ => True) C w m := by
  rcases move_cases (p := p) w m with ⟨r, hfind, rfl, -, -⟩ | ⟨hcommitted, hanswer, hallowed⟩
  · rw [hgo r hfind, allowed_go hfind]
  · exact iff_of_true (hidle m hcommitted hanswer) (hallowed C)

/-- Any session may begin, and any statement may run. -/
theorem allowed_any (m : Move ι) : Allowed (fun _ => True) (fun _ _ _ => True) w m := by
  cases m with
  | start id input => trivial
  | go id => exact fun _ _ => trivial
  | abort id => trivial

theorem mem_others {id : Nat} {t : τ} :
    t ∈ w.others id ↔ ∃ r ∈ w.running, r.id ≠ id ∧ r.state = t := by
  simp [Sessions.others, Table.mem_def, and_assoc]

/-- Of two that hold a lock, neither lets the other. -/
theorem excludes_symm {held held' : Bool} (h : held = true → held' = false) :
    held' = true → held = false := by
  revert h
  cases held <;> simp

/-- Statements keep an invariant of what is committed, an assertion of each session, and a relation of
any two. -/
structure Rule (p : Protocol σ τ ι ω) (S : ι → Prop) (C : σ → List τ → τ → Prop)
    (I : σ → Prop) (J : σ → τ → Prop) (X : τ → τ → Prop) : Prop where
  symm : ∀ t u, X t u → X u t
  start : ∀ s input, I s → S input →
    J s (p.start input) ∧ ∀ u, J s u → X (p.start input) u
  goes : ∀ s us t, I s → J s t → (∀ u ∈ us, J s u ∧ X t u) → C s us t →
    ∀ s' t' answer, p.next s us t = .goes s' t' answer →
      I s' ∧ J s' t' ∧ ∀ u ∈ us, J s' u ∧ X t' u
  ends : ∀ s us t, I s → J s t → (∀ u ∈ us, J s u ∧ X t u) → C s us t →
    ∀ s' answer, p.next s us t = .ends s' answer → I s' ∧ ∀ u ∈ us, J s' u

/-- The three hold of all that runs. -/
structure Holds (I : σ → Prop) (J : σ → τ → Prop) (X : τ → τ → Prop) (w : Sessions σ τ) :
    Prop where
  committed : I w.committed
  session : ∀ r ∈ w.running, J w.committed r.state
  pair : ∀ r ∈ w.running, ∀ r' ∈ w.running, r.id ≠ r'.id → X r.state r'.state

theorem Holds.start {s : σ} (h : I s) : Holds I J X (Sessions.start s) :=
  ⟨h, fun _ hr => absurd hr List.not_mem_nil, fun _ hr => absurd hr List.not_mem_nil⟩

theorem Holds.others (h : Holds I J X w) {r : Session τ} (hr : r ∈ w.running) :
    ∀ u ∈ w.others r.id, J w.committed u ∧ X r.state u := by
  intro u hu
  obtain ⟨r', hr', hne, rfl⟩ := mem_others.mp hu
  exact ⟨h.session r' hr', h.pair r hr r' hr' hne.symm⟩

/-- A session that is gone is not missed. -/
theorem Holds.delete (h : Holds I J X w) {id : Nat} {s : σ} (hI : I s)
    (hJ : ∀ u ∈ w.others id, J s u) :
    Holds I J X ⟨s, w.running.deleteWhere fun r => r.id = id⟩ where
  committed := hI
  session r hr := by
    obtain ⟨hr, hid⟩ := Table.mem_deleteWhere.mp hr
    exact hJ _ (mem_others.mpr ⟨r, hr, by simpa using hid, rfl⟩)
  pair r hr r' hr' hne := h.pair r (Table.mem_deleteWhere.mp hr).1 r' (Table.mem_deleteWhere.mp hr').1 hne

theorem Holds.update (h : Holds I J X w) (hsymm : ∀ t u, X t u → X u t) {id : Nat} {s : σ} {t : τ}
    {r : Session τ} (hfind : w.running.find? id = some r) (hI : I s) (hJ : J s t)
    (hothers : ∀ u ∈ w.others id, J s u ∧ X t u) :
    Holds I J X ⟨s, w.running.update id (fun r => { r with state := t }) fun _ => rfl⟩ := by
  have hcases : ∀ r' ∈ w.running.update id (fun r => { r with state := t }) (fun _ => rfl),
      r' = { r with state := t } ∨ (r' ∈ w.running ∧ r'.id ≠ id) := fun r' hr' =>
    (Table.mem_update_of_find _ _ hfind).mp hr'
  have hid : r.id = id := Table.find?_key hfind
  refine ⟨hI, fun r' hr' => ?_, fun a ha b hb hne => ?_⟩
  · rcases hcases r' hr' with rfl | ⟨hmem, hne⟩
    · exact hJ
    · exact (hothers _ (mem_others.mpr ⟨r', hmem, hne, rfl⟩)).1
  · rcases hcases a ha with rfl | ⟨ha, hane⟩
    · rcases hcases b hb with rfl | ⟨hb, hbne⟩
      · exact absurd rfl hne
      · exact (hothers _ (mem_others.mpr ⟨b, hb, hbne, rfl⟩)).2
    · rcases hcases b hb with rfl | ⟨hb, hbne⟩
      · exact hsymm _ _ (hothers _ (mem_others.mpr ⟨a, ha, hane, rfl⟩)).2
      · exact h.pair a ha b hb hne

/-- Every move keeps what its statement keeps. -/
theorem Rule.step (hp : p.Rule S C I J X) (w : Sessions σ τ) (m : Move ι) (h : Holds I J X w)
    (hallowed : Allowed S C w m) : Holds I J X (p.machine.step w m).1 := by
  change Holds I J X (p.step w m).1
  cases m with
  | start id input =>
    unfold Protocol.step
    dsimp only
    split
    · rename_i running hins
      obtain ⟨hJ, hX⟩ := hp.start _ input h.committed hallowed
      have hcases : ∀ r ∈ running, r = ⟨id, p.start input⟩ ∨ r ∈ w.running := fun r hr =>
        ((Table.mem_insert? hins).mp hr).symm
      refine ⟨h.committed, fun r hr => ?_, fun a ha b hb hne => ?_⟩
      · rcases hcases r hr with rfl | hr
        · exact hJ
        · exact h.session r hr
      · rcases hcases a ha with rfl | ha
        · rcases hcases b hb with rfl | hb
          · exact absurd rfl hne
          · exact hX _ (h.session b hb)
        · rcases hcases b hb with rfl | hb
          · exact hp.symm _ _ (hX _ (h.session a ha))
          · exact h.pair a ha b hb hne
    · exact h
  | go id =>
    unfold Protocol.step
    dsimp only
    split
    · exact h
    · rename_i r hfind
      obtain ⟨hmem, hkey⟩ := Table.find?_eq_some.mp hfind
      have hothers : ∀ u ∈ w.others id, J w.committed u ∧ X r.state u := by
        obtain rfl : r.id = id := hkey
        exact h.others hmem
      have hC := hallowed r hfind
      split
      · exact h
      · rename_i s t answer hnext
        obtain ⟨hI, hJ, hrest⟩ :=
          hp.goes _ _ _ h.committed (h.session r hmem) hothers hC _ _ _ hnext
        exact h.update hp.symm hfind hI hJ hrest
      · rename_i s answer hnext
        obtain ⟨hI, hrest⟩ := hp.ends _ _ _ h.committed (h.session r hmem) hothers hC _ _ hnext
        exact h.delete hI hrest
  | abort id =>
    refine h.delete h.committed fun u hu => ?_
    obtain ⟨r, hr, -, rfl⟩ := mem_others.mp hu
    exact h.session r hr

/-- Every interleaving keeps what its statements keep. -/
theorem Rule.run (hp : p.Rule S C I J X) {moves : List (Move ι)} (h : Holds I J X w)
    (hallowed : p.machine.Every (Allowed S C) w moves) : Holds I J X (p.machine.run w moves) :=
  Machine.invariant hp.step h hallowed

/-- What follows from the three at a move holds along a run. -/
theorem Rule.every (hp : p.Rule S C I J X) {moves : List (Move ι)}
    {P : Sessions σ τ → Move ι → Prop}
    (hP : ∀ w m, Holds I J X w → Allowed S C w m → P w m) (h : Holds I J X w)
    (hallowed : p.machine.Every (Allowed S C) w moves) : p.machine.Every P w moves :=
  Machine.every_imp hp.step hP h hallowed

/-- A run in which the sessions that begin satisfy `S`, and any statement may run. -/
theorem every_allowed {w : Sessions σ τ} {moves : List (Move ι)}
    (h : ∀ id input, .start id input ∈ moves → S input) :
    p.machine.Every (Allowed S fun _ _ _ => True) w moves := by
  induction moves generalizing w with
  | nil => trivial
  | cons m moves ih =>
    refine ⟨?_, ih fun id input hm => h id input (List.mem_cons_of_mem _ hm)⟩
    cases m with
    | start id input => exact h id input List.mem_cons_self
    | go id => exact fun _ _ => trivial
    | abort id => trivial

end Protocol
