import Splite.Lib.Interleave

/-!
# Sessions that are refused

A session that is refused has left no trace: none of its statements, from the first one on, has changed
what is committed.

* `Protocol.Hushed`: what each statement has to meet for this.
* `Protocol.Hushed.quietWhen`: then it holds in every interleaving.
-/

namespace Protocol

variable {σ τ ι ω : Type} (p : Protocol σ τ ι ω)

/-- The session with this id runs before each of the moves. -/
def Lasts (id : Nat) (w : Sessions σ τ) (moves : List (Move ι)) : Prop :=
  p.machine.Every (fun w _ => (w.running.find? id).isSome) w moves

/-- The statements of the session with this id leave what is committed. -/
def Quiet (id : Nat) (w : Sessions σ τ) (moves : List (Move ι)) : Prop :=
  p.machine.Every (fun w m => m = .go id → (p.machine.step w m).1.committed = w.committed) w moves

/-- A session that answers `R` has changed nothing, from its first statement on. -/
def QuietWhen (R : ω → Prop) (w : Sessions σ τ) (moves : List (Move ι)) : Prop :=
  ∀ before id input middle after, moves = before ++ .start id input :: (middle ++ .go id :: after) →
    (p.machine.run w before).running.find? id = none →
    p.Lasts id (p.machine.run w (before ++ [.start id input])) middle →
    (∃ o ∈ (p.machine.step (p.machine.run w (before ++ .start id input :: middle)) (.go id)).2, R o) →
    p.Quiet id (p.machine.run w (before ++ [.start id input])) (middle ++ [.go id])

variable {p} {w : Sessions σ τ} {Q : τ → Prop} {R : ω → Prop} {id : Nat}

/-- A move leaves a session over, as it was (when it is its own, it waits), or one statement further. -/
theorem find?_step (m : Move ι) {r : Session τ} (h : w.running.find? id = some r) :
    (p.machine.step w m).1.running.find? id = none ∨
      ((p.machine.step w m).1.running.find? id = some r ∧
        (m = .go id → p.machine.step w m = (w, []))) ∨
      m = .go id ∧ ∃ s t answer, p.next w.committed (w.others id) r.state = .goes s t answer ∧
        (p.machine.step w m).1.running.find? id = some ⟨id, t⟩ := by
  have hdelete : ∀ id', (w.running.deleteWhere fun r => r.id = id').find? id = none ∨
      (w.running.deleteWhere fun r => r.id = id').find? id = some r := by
    intro id'
    rw [Table.find?_deleteWhere h]
    split
    · exact .inl rfl
    · exact .inr rfl
  cases m with
  | start id' input =>
    refine .inr (.inl ⟨?_, nofun⟩)
    change (p.step w (.start id' input)).1.running.find? id = some r
    unfold step
    dsimp only
    split
    · rename_i running hins
      rw [Table.find?_insert? hins, if_neg, h]
      intro heq
      exact (Table.insert?_eq_some.mp hins).1 r (Table.find?_mem h) ((Table.find?_key h).trans heq)
    · exact h
  | abort id' =>
    rcases hdelete id' with hnone | hsome
    · exact .inl hnone
    · exact .inr (.inl ⟨hsome, nofun⟩)
  | go id' =>
    by_cases hid : id' = id
    · subst hid
      cases hnext : p.next w.committed (w.others id') r.state with
      | waits =>
        rw [step_waits h hnext]
        exact .inr (.inl ⟨h, fun _ => rfl⟩)
      | goes s t answer => exact .inr (.inr ⟨rfl, s, t, answer, rfl, running_goes h hnext⟩)
      | ends s answer => exact .inl (running_ends h hnext)
    · have hother : (p.step w (.go id')).1.running.find? id = none ∨
          (p.step w (.go id')).1.running.find? id = some r := by
        unfold step
        dsimp only
        split
        · exact .inr h
        · split
          · exact .inr h
          · exact .inr (by rw [Table.find?_update, if_neg (Ne.symm hid), h])
          · exact hdelete id'
      rcases hother with hnone | hsome
      · exact .inl hnone
      · exact .inr (.inl ⟨hsome, fun hgo => absurd (Move.go.inj hgo) hid⟩)

/-- What a protocol has to meet so that sessions which answer `R` have changed nothing: a session
that changes something is in a state of `Q` after it, and answers `R` in no state of `Q`. -/
structure Hushed (p : Protocol σ τ ι ω) (Q : τ → Prop) (R : ω → Prop) : Prop where
  quiet : ∀ s us t s' t' answer, p.next s us t = .goes s' t' answer → s' = s ∨ Q t'
  keeps : ∀ s us t s' t' answer, Q t → p.next s us t = .goes s' t' answer → Q t'
  refused : ∀ s us t, (∃ o ∈ (p.next s us t).answer, R o) →
    (p.next s us t).committed s = s ∧ ¬Q t

/-- A session of `Q` that lasts stays in `Q`. -/
theorem Hushed.lasts (hp : p.Hushed Q R) {moves : List (Move ι)} {r : Session τ}
    (h : w.running.find? id = some r) (hq : Q r.state)
    (hlasts : p.Lasts id w moves) : ∀ r' ∈ (p.machine.run w moves).running.find? id, Q r'.state := by
  induction moves generalizing w r with
  | nil =>
    rintro r' hr'
    obtain rfl : r = r' := by simpa [h] using hr'
    exact hq
  | cons m moves ih =>
    rw [Machine.run_cons]
    rcases find?_step m h with hnone | ⟨hsome, -⟩ | ⟨-, s, t, answer, hnext, hgoes⟩
    · cases moves with
      | nil =>
        intro r' hr'
        rw [Machine.run_nil, hnone] at hr'
        cases hr'
      | cons m' moves =>
        have := hlasts.2.1
        simp [hnone] at this
    · exact ih hsome hq hlasts.2
    · exact ih hgoes (hp.keeps _ _ _ _ _ _ hq hnext) hlasts.2

/-- A session that answers `R` at the end has changed nothing. -/
theorem Hushed.quiet_of_refused (hp : p.Hushed Q R) {moves : List (Move ι)} {r : Session τ}
    (h : w.running.find? id = some r) (hlasts : p.Lasts id w moves)
    (hrefused : ∃ o ∈ (p.machine.step (p.machine.run w moves) (.go id)).2, R o) :
    p.Quiet id w (moves ++ [.go id]) := by
  have hlast : ∀ {w : Sessions σ τ}, (∃ o ∈ (p.machine.step w (.go id)).2, R o) →
      ∃ r ∈ w.running.find? id, (p.machine.step w (.go id)).1.committed = w.committed ∧ ¬Q r.state := by
    rintro w ⟨o, ho, hR⟩
    obtain ⟨id', r, hgo, hfind, hanswer⟩ := answer_mem ho
    cases hgo
    obtain ⟨hsame, hnot⟩ := hp.refused _ _ _ ⟨o, hanswer, hR⟩
    exact ⟨r, hfind, (committed_go hfind).trans hsame, hnot⟩
  induction moves generalizing w r with
  | nil => exact ⟨fun _ => (hlast hrefused).choose_spec.2.1, trivial⟩
  | cons m moves ih =>
    rcases find?_step m h with hnone | ⟨hsome, hwaits⟩ | ⟨rfl, s, t, answer, hnext, hgoes⟩
    · -- A session that is over answers nothing more.
      obtain ⟨r', hr', -⟩ := hlast hrefused
      cases moves with
      | nil =>
        rw [Machine.run_cons, Machine.run_nil, hnone] at hr'
        cases hr'
      | cons m' moves =>
        have := hlasts.2.1
        simp [hnone] at this
    · exact ⟨fun hgo => by rw [hwaits hgo], ih hsome hlasts.2 hrefused⟩
    · refine ⟨fun _ => ?_, ih hgoes hlasts.2 hrefused⟩
      rcases hp.quiet _ _ _ _ _ _ hnext with hs | hq
      · rw [committed_go h, hnext]
        exact hs
      · obtain ⟨r', hr', -, hnot⟩ := hlast hrefused
        exact absurd (hp.lasts hgoes hq hlasts.2 r' hr') hnot

/-- In every run, sessions that answer `R` have changed nothing. -/
theorem Hushed.quietWhen (hp : p.Hushed Q R) (w : Sessions σ τ) (moves : List (Move ι)) :
    p.QuietWhen R w moves := by
  rintro before id input middle after - hfree hlasts hrefused
  obtain ⟨r, hr⟩ : ∃ r, (p.machine.run w (before ++ [.start id input])).running.find? id = some r := by
    rw [Machine.run_append]
    change ∃ r, (p.step (p.machine.run w before) (.start id input)).1.running.find? id = some r
    obtain ⟨running, hins⟩ := Table.exists_insert? (t := (p.machine.run w before).running)
      (r := ⟨id, p.start input⟩) (Table.find?_eq_none.mp hfree)
    refine ⟨⟨id, p.start input⟩, ?_⟩
    unfold step
    simp only [hins]
    rw [Table.find?_insert? hins]
    exact if_pos rfl
  refine hp.quiet_of_refused hr hlasts ?_
  rw [← Machine.run_append, List.append_assoc]
  exact hrefused

end Protocol
