import Splite.Lib.Interleave

/-!
# Answers that others back

Some answers of a protocol rest on earlier ones: a session earns first, holds what it has earned, and
spends it once.

* `Protocol.Backed`: what each statement has to meet for this.
* `Protocol.Backed.run`: then a run spends no more than it has earned.
-/

/-- What a move begins satisfies `P`, with its id. -/
def Move.Begins {ι : Type} (P : Nat → ι → Prop) : Move ι → Prop
  | .start id input => P id input
  | _ => True

instance {ι : Type} (P : Nat → ι → Prop) [∀ id input, Decidable (P id input)] :
    ∀ m : Move ι, Decidable (m.Begins P)
  | .start id input => inferInstanceAs (Decidable (P id input))
  | .go _ | .abort _ => isTrue trivial

theorem Move.begins_iff {ι : Type} {P : Nat → ι → Prop} {moves : List (Move ι)} :
    (∀ m ∈ moves, m.Begins P) ↔ ∀ id input, .start id input ∈ moves → P id input := by
  refine ⟨fun h id input hm => h _ hm, fun h m hm => ?_⟩
  cases m with
  | start id input => exact h id input hm
  | go id => trivial
  | abort id => trivial

namespace Protocol

variable {σ τ ι ω : Type}

/-- Sessions that satisfy `J` hold `held`. A statement spends what it earns, and what its session has held
and holds no more. -/
structure Backed (p : Protocol σ τ ι ω) (S : ι → Prop) (J : τ → Prop) (spends earns : ω → Bool)
    (held : τ → Nat) : Prop where
  start : ∀ input, S input → J (p.start input) ∧ held (p.start input) = 0
  goes : ∀ s us t s' t' answer, J t → p.next s us t = .goes s' t' answer →
    J t' ∧ answer.countP spends + held t' ≤ answer.countP earns + held t
  ends : ∀ s us t s' answer, J t → p.next s us t = .ends s' answer →
    answer.countP spends ≤ answer.countP earns + held t

/-- What the sessions of a world hold. -/
def load (held : τ → Nat) (w : Sessions σ τ) : Nat := (w.running.rows.map fun r => held r.state).sum

variable {p : Protocol σ τ ι ω} {S : ι → Prop} {J : τ → Prop} {spends earns : ω → Bool} {held : τ → Nat}
  {w : Sessions σ τ}

/-- The one session of an id, among the others. -/
theorem running_split {id : Nat} {r : Session τ} (h : w.running.find? id = some r) :
    ∃ before after, w.running.rows = before ++ r :: after ∧ r.id = id ∧
      ∀ r' ∈ before ++ after, r'.id ≠ id := by
  obtain ⟨hmem, rfl⟩ := Table.find?_eq_some.mp h
  obtain ⟨before, after, hrows⟩ := List.append_of_mem (Table.mem_def.mp hmem)
  refine ⟨before, after, hrows, rfl, fun r' hr' hid => ?_⟩
  have hnodup := w.running.nodup
  rw [hrows, List.map_append, List.map_cons, List.nodup_middle, List.nodup_cons] at hnodup
  refine hnodup.1 ?_
  rw [← List.map_append]
  exact List.mem_map.mpr ⟨r', hr', hid⟩

/-- An id that does not run does so only when it is begun. -/
theorem running_none {id : Nat} {m : Move ι} (h : w.running.find? id = none)
    (hm : ∀ input, m ≠ .start id input) : (p.machine.step w m).1.running.find? id = none := by
  change (p.step w m).1.running.find? id = none
  have hnone : ∀ r ∈ w.running, r.id ≠ id := Table.find?_eq_none.mp h
  have hdelete : ∀ id', (w.running.deleteWhere fun r => r.id = id').find? id = none := fun id' =>
    Table.find?_eq_none.mpr fun r hr => hnone r (Table.mem_deleteWhere.mp hr).1
  cases m with
  | start id' input =>
    unfold Protocol.step
    dsimp only
    split
    · rename_i running hins
      refine Table.find?_eq_none.mpr fun r hr => ?_
      rcases (Table.mem_insert? hins).mp hr with hr | rfl
      · exact hnone r hr
      · rintro rfl
        exact hm input rfl
    · exact h
  | go id' =>
    unfold Protocol.step
    dsimp only
    split
    · exact h
    · rename_i r hfind
      split
      · exact h
      · have hne : id ≠ id' := by
          rintro rfl
          simp [h] at hfind
        rw [Table.find?_update, if_neg hne, h]
      · exact hdelete id'
  | abort id' => exact hdelete id'

/-- A move that begins a session answers nothing. -/
theorem answer_start {id : Nat} {input : ι} : (p.machine.step w (.start id input)).2 = [] := by
  refine List.eq_nil_iff_forall_not_mem.mpr fun o ho => ?_
  obtain ⟨id, r, hgo, -⟩ := answer_mem ho
  cases hgo

/-- An id that does not run does nothing. -/
theorem step_idle {id : Nat} (h : w.running.find? id = none) : p.machine.step w (.go id) = (w, []) := by
  change p.step w (.go id) = _
  unfold Protocol.step
  simp only [h]

section Load

variable {id : Nat} {r : Session τ} {s' : σ} {t' : τ} {answer : List ω}

theorem load_start (p : Protocol σ τ ι ω) (held : τ → Nat) (w : Sessions σ τ) (id : Nat) (input : ι) :
    load held (p.machine.step w (.start id input)).1 =
        load held w + held (p.start input) ∨
      load held (p.machine.step w (.start id input)).1 = load held w := by
  change load held (p.step w (.start id input)).1 = _ ∨ load held (p.step w (.start id input)).1 = _
  unfold Protocol.step
  dsimp only
  split
  · rename_i running hins
    left
    simp [load, (Table.insert?_eq_some.mp hins).2]
  · exact .inr rfl

theorem load_goes (held : τ → Nat) (h : w.running.find? id = some r)
    (hnext : p.next w.committed (w.others id) r.state = .goes s' t' answer) :
    load held (p.machine.step w (.go id)).1 + held r.state = load held w + held t' := by
  change load held (p.step w (.go id)).1 + _ = _
  unfold Protocol.step
  simp only [h, hnext]
  obtain ⟨before, after, hrows, hid, hothers⟩ := running_split h
  have hupdate : (w.running.update id (fun r => { r with state := t' }) fun _ => rfl).rows =
      before ++ { r with state := t' } :: after := by
    simp only [Table.update, Table.updateWhere, hrows, List.map_append, List.map_cons]
    congr 1
    · refine (List.map_congr_left fun r' hr' => ?_).trans (List.map_id _)
      exact if_neg (by simpa [Keyed.key] using hothers r' (List.mem_append_left _ hr'))
    · congr 1
      · simp [Keyed.key, hid]
      · refine (List.map_congr_left fun r' hr' => ?_).trans (List.map_id _)
        exact if_neg (by simpa [Keyed.key] using hothers r' (List.mem_append_right _ hr'))
  simp only [load, hupdate, hrows, List.map_append, List.map_cons, List.sum_append, List.sum_cons]
  omega

theorem load_ends (held : τ → Nat) (h : w.running.find? id = some r)
    (hnext : p.next w.committed (w.others id) r.state = .ends s' answer) :
    load held (p.machine.step w (.go id)).1 + held r.state = load held w := by
  change load held (p.step w (.go id)).1 + _ = _
  unfold Protocol.step
  simp only [h, hnext]
  obtain ⟨before, after, hrows, hid, hothers⟩ := running_split h
  have hdelete : (w.running.deleteWhere fun r => r.id = id).rows = before ++ after := by
    simp only [Table.deleteWhere, hrows, List.filter_append, List.filter_cons, hid, decide_true,
      Bool.not_true, Bool.false_eq_true, if_false]
    rw [← List.filter_append, List.filter_eq_self.mpr]
    intro r' hr'
    simpa using hothers r' hr'
  simp only [load, hdelete, hrows, List.map_append, List.map_cons, List.sum_append, List.sum_cons]
  omega

theorem load_abort : load held (p.machine.step w (.abort id)).1 ≤ load held w :=
  (List.filter_sublist.map _).sum_le_sum fun _ _ => Nat.zero_le _

end Load

/-- Every move spends what it earns and what is held no more. -/
theorem Backed.step (hp : p.Backed S J spends earns held) (w : Sessions σ τ) (m : Move ι)
    (hJ : ∀ r ∈ w.running, J r.state) (hS : ∀ id input, m = .start id input → S input) :
    (∀ r ∈ (p.machine.step w m).1.running, J r.state) ∧
      (p.machine.step w m).2.countP spends + load held (p.machine.step w m).1 ≤
        (p.machine.step w m).2.countP earns + load held w := by
  have hrule : p.Rule S (fun _ _ _ => True) (fun _ => True) (fun _ t => J t) fun _ _ => True := by
    refine ⟨fun _ _ _ => trivial, fun _ input _ hinput => ⟨(hp.start input hinput).1, fun _ _ => trivial⟩,
      fun s us t _ ht hus _ s' t' answer h => ?_, fun s us t _ ht hus _ s' answer h => ?_⟩
    · exact ⟨trivial, (hp.goes _ _ _ _ _ _ ht h).1, fun u hu => ⟨(hus u hu).1, trivial⟩⟩
    · exact ⟨trivial, fun u hu => (hus u hu).1⟩
  have hallowed : Allowed S (fun _ _ _ => True) w m := by
    cases m with
    | start id input => exact hS id input rfl
    | go id => exact fun _ _ => trivial
    | abort id => trivial
  refine ⟨(hrule.step w m ⟨trivial, hJ, fun _ _ _ _ _ => trivial⟩ hallowed).session, ?_⟩
  cases m with
  | start id input =>
    have hheld := (hp.start input (hS id input rfl)).2
    rw [answer_start]
    rcases load_start p held w id input with h | h <;>
      simp [h, hheld]
  | go id =>
    cases hfind : w.running.find? id with
    | none =>
      rw [step_idle hfind]
      exact le_rfl
    | some r =>
      have hr := hJ r (Table.find?_mem hfind)
      rw [answer_go hfind]
      cases hnext : p.next w.committed (w.others id) r.state with
      | waits =>
        rw [step_waits hfind hnext]
        exact le_rfl
      | goes s' t' answer =>
        have hload := load_goes held hfind hnext
        have hle := (hp.goes _ _ _ _ _ _ hr hnext).2
        change answer.countP spends + _ ≤ answer.countP earns + _
        omega
      | ends s' answer =>
        have hload := load_ends held hfind hnext
        have hle := hp.ends _ _ _ _ _ hr hnext
        change answer.countP spends + _ ≤ answer.countP earns + _
        omega
  | abort id => exact Nat.add_le_add_left load_abort _

theorem Backed.run_from (hp : p.Backed S J spends earns held) {moves : List (Move ι)}
    (hJ : ∀ r ∈ w.running, J r.state) (hS : ∀ id input, .start id input ∈ moves → S input) :
    (p.machine.outputs w moves).countP spends + load held (p.machine.run w moves) ≤
      (p.machine.outputs w moves).countP earns + load held w := by
  induction moves generalizing w with
  | nil => exact le_rfl
  | cons m moves ih =>
    obtain ⟨hJ', hle⟩ := hp.step w m hJ fun id input hm => hS id input (hm ▸ List.mem_cons_self)
    have hrest := ih hJ' fun id input hm => hS id input (List.mem_cons_of_mem _ hm)
    simp only [Machine.outputs, Machine.run_cons, List.countP_append]
    omega

/-- A run spends no more than it has earned. -/
theorem Backed.run (hp : p.Backed S J spends earns held) {s : σ} {moves : List (Move ι)}
    (hS : ∀ id input, .start id input ∈ moves → S input) :
    (p.machine.outputs (Sessions.start s) moves).countP spends ≤
      (p.machine.outputs (Sessions.start s) moves).countP earns := by
  have hle := hp.run_from (w := Sessions.start s) (fun _ hr => absurd hr List.not_mem_nil) hS
  have hnone : load held (Sessions.start (τ := τ) s) = 0 := rfl
  omega

end Protocol
