import Mathlib.Tactic

/-!
# Counters that expire

Counters as a cache keeps them. The first increment makes one, with no time to live; past its expiry it
is gone, and the next increment makes another.

The hits of a counter are a sequence of lives: each hit counts on from the one before it (under `C`), or
begins a new life (under `R`).

* `Lives.countP_le`: when a life begins only more than `W` behind the beginning of the last one, any
  window of length `W` has at most `2 * m - 1` hits of rank at most `m`.
* `Lives.rank_le`: when a life is over `W` behind its beginning, a hit of rank `n` is the last of `n` hits
  within `W`.
-/

/-- What it has come to, when it was made (which nothing reads), and when it expires. -/
structure Counter where
  count : Nat
  born : Nat
  expiry : Option Nat
  deriving DecidableEq, Repr

/-- The counters, by key, and the clock. -/
structure Counters (κ : Type) where
  now : Nat
  stored : κ → Option Counter

namespace Counters

variable {κ : Type}

def empty (now : Nat) : Counters κ := ⟨now, fun _ => none⟩

/-- What is stored and has not expired. -/
def get (s : Counters κ) (k : κ) : Option Counter :=
  (s.stored k).filter fun c => c.expiry.all fun e => s.now ≤ e

/-- The time to live in seconds; `-1` without one, and `-2` without a counter. -/
def ttl (s : Counters κ) (k : κ) : Int :=
  match s.get k with
  | none => -2
  | some ⟨_, _, none⟩ => -1
  | some ⟨_, _, some e⟩ => ((e - s.now + 500) / 1000 : Nat)

def elapse (s : Counters κ) (d : Nat) : Counters κ := { s with now := s.now + d }

variable {s s' : Counters κ} {k k' : κ} {c : Counter} {d ttl : Nat}

theorem ttl_neg (h : s.get k = some c) : s.ttl k < 0 ↔ c.expiry = none := by
  obtain ⟨count, born, expiry⟩ := c
  cases expiry with
  | none => simp [Counters.ttl, h]
  | some e =>
    simp only [Counters.ttl, h, reduceCtorEq, iff_false, not_lt]
    exact Int.natCast_nonneg _

@[simp] theorem now_elapse : (s.elapse d).now = s.now + d := rfl

@[simp] theorem stored_elapse : (s.elapse d).stored k = s.stored k := rfl

theorem get_eq_some : s.get k = some c ↔ s.stored k = some c ∧ ∀ e ∈ c.expiry, s.now ≤ e := by
  unfold get
  rw [Option.filter_eq_some_iff]
  cases c.expiry <;> simp

theorem get_eq_none :
    s.get k = none ↔ ∀ c, s.stored k = some c → ∃ e ∈ c.expiry, e < s.now := by
  rw [Option.eq_none_iff_forall_ne_some]
  constructor
  · intro h c hc
    by_contra hlive
    refine h c (get_eq_some.mpr ⟨hc, fun e he => ?_⟩)
    by_contra hlt
    exact hlive ⟨e, he, not_le.mp hlt⟩
  · intro h c hc
    obtain ⟨hstored, hlive⟩ := get_eq_some.mp hc
    obtain ⟨e, he, hlt⟩ := h c hstored
    exact absurd (hlive e he) (not_le.mpr hlt)

theorem get_congr (hnow : s'.now = s.now) (h : s'.stored k = s.stored k) : s'.get k = s.get k := by
  simp [get, hnow, h]

/-- What an increment makes of a counter. -/
def bumped (s : Counters κ) (k : κ) : Counter :=
  match s.get k with
  | none => ⟨1, s.now, none⟩
  | some c => { c with count := c.count + 1 }

theorem bumped_of_none (h : s.get k = none) : s.bumped k = ⟨1, s.now, none⟩ := by simp [bumped, h]

theorem bumped_of_some (h : s.get k = some c) : s.bumped k = { c with count := c.count + 1 } := by
  simp [bumped, h]

variable [DecidableEq κ]

def set (s : Counters κ) (k : κ) (c : Option Counter) : Counters κ :=
  { s with stored := Function.update s.stored k c }

def incr (s : Counters κ) (k : κ) : Counters κ := s.set k (some (s.bumped k))

/-- A time to live; what is not there gets none. -/
def expire (s : Counters κ) (k : κ) (ttl : Nat) : Counters κ :=
  match s.get k with
  | none => s
  | some c => s.set k (some { c with expiry := some (s.now + ttl) })

def delete (s : Counters κ) (k : κ) : Counters κ := s.set k none

/-- What has been incremented is there. -/
theorem get_incr_self : (s.incr k).get k = some (s.bumped k) := by
  refine get_eq_some.mpr ⟨Function.update_self .., fun e he => ?_⟩
  cases h : s.get k with
  | none => simp [bumped_of_none h] at he
  | some c =>
    rw [bumped_of_some h] at he
    exact (get_eq_some.mp h).2 e he

@[simp] theorem now_incr : (s.incr k).now = s.now := rfl

@[simp] theorem stored_incr_self : (s.incr k).stored k = some (s.bumped k) := Function.update_self ..

theorem stored_incr_other (h : k' ≠ k) : (s.incr k).stored k' = s.stored k' := Function.update_of_ne h ..

@[simp] theorem now_expire : (s.expire k ttl).now = s.now := by
  unfold expire
  split <;> rfl

theorem stored_expire_of_none (h : s.get k = none) : s.expire k ttl = s := by
  simp [expire, h]

theorem stored_expire_of_some (h : s.get k = some c) :
    (s.expire k ttl).stored k = some { c with expiry := some (s.now + ttl) } := by
  simp [expire, h, set]

theorem stored_expire_other (h : k' ≠ k) : (s.expire k ttl).stored k' = s.stored k' := by
  unfold expire
  split
  · rfl
  · exact Function.update_of_ne h ..

@[simp] theorem now_delete : (s.delete k).now = s.now := rfl

@[simp] theorem stored_delete_self : (s.delete k).stored k = none := Function.update_self ..

theorem stored_delete_other (h : k' ≠ k) : (s.delete k).stored k' = s.stored k' :=
  Function.update_of_ne h ..

end Counters

/-! ## Hits and lives -/

/-- When a counter was incremented, and what it came to. -/
structure Hit where
  time : Nat
  rank : Nat
  deriving DecidableEq, Repr

/-- When a counter was made and when it was last hit, and how often. -/
structure Life where
  born : Nat
  last : Nat
  count : Nat
  deriving DecidableEq, Repr

def Life.begin (time : Nat) : Life := ⟨time, time, 1⟩

def Life.goOn (l : Life) (time : Nat) : Life := { l with last := time, count := l.count + 1 }

/-- Each hit counts on under `C`, or begins a new life under `R`. -/
def Lives (C R : Life → Nat → Prop) : Option Life → List Hit → Prop
  | _, [] => True
  | none, h :: hs => h.rank = 1 ∧ Lives C R (some (.begin h.time)) hs
  | some l, h :: hs =>
    l.last ≤ h.time ∧
      (C l h.time ∧ h.rank = l.count + 1 ∧ Lives C R (some (l.goOn h.time)) hs ∨
        R l h.time ∧ h.rank = 1 ∧ Lives C R (some (.begin h.time)) hs)

namespace Lives

variable {C R : Life → Nat → Prop} {W m t : Nat} {hs : List Hit} {l : Life}

/-- A hit of rank at most `m` within `W` from `t`. -/
def within (m t W : Nat) (h : Hit) : Bool := t ≤ h.time && h.time ≤ t + W && h.rank ≤ m

/-- What comes behind the window is not in it. -/
theorem countP_late (h : Lives C R (some l) hs) (hlate : t + W < l.last) :
    hs.countP (within m t W) = 0 := by
  induction hs generalizing l with
  | nil => rfl
  | cons x hs ih =>
    obtain ⟨hlast, hcases⟩ := h
    have hx : within m t W x = false := by simp [within]; omega
    rw [List.countP_cons_of_neg (by simp [hx])]
    rcases hcases with ⟨-, -, hrest⟩ | ⟨-, -, hrest⟩
    · exact ih hrest (hlate.trans_le hlast)
    · exact ih hrest (hlate.trans_le hlast)

/-- A life that has begun in the window is the only one from there on. -/
theorem countP_born (hR : ∀ l t, R l t → l.born + W < t) (h : Lives C R (some l) hs) (hborn : t ≤ l.born) :
    hs.countP (within m t W) ≤ m - l.count := by
  induction hs generalizing l with
  | nil => exact Nat.zero_le _
  | cons x hs ih =>
    obtain ⟨hlast, ⟨-, hrank, hrest⟩ | ⟨hnew, hrank, hrest⟩⟩ := h
    · have hcount := ih hrest hborn
      rw [show (l.goOn x.time).count = l.count + 1 from rfl] at hcount
      rw [List.countP_cons]
      split
      · rename_i hx
        have : x.rank ≤ m := by
          simp only [within, Bool.and_eq_true, decide_eq_true_eq] at hx
          exact hx.2
        omega
      · omega
    · have hlate : t + W < x.time := (Nat.add_le_add_right hborn W).trans_lt (hR l x.time hnew)
      have hx : within m t W x = false := by simp [within]; omega
      rw [List.countP_cons_of_neg (by simp [hx]), countP_late hrest hlate]
      exact Nat.zero_le _

/-- In the window there is what is left of this life, and one more. -/
theorem countP_last (hR : ∀ l t, R l t → l.born + W < t) (h : Lives C R (some l) hs) (hlast : t ≤ l.last) :
    hs.countP (within m t W) ≤ (m - l.count) + m := by
  induction hs generalizing l with
  | nil => exact Nat.zero_le _
  | cons x hs ih =>
    obtain ⟨hle, ⟨-, hrank, hrest⟩ | ⟨hnew, hrank, hrest⟩⟩ := h
    · have hcount := ih hrest (hlast.trans hle)
      rw [show (l.goOn x.time).count = l.count + 1 from rfl] at hcount
      rw [List.countP_cons]
      split
      · rename_i hx
        have : x.rank ≤ m := by
          simp only [within, Bool.and_eq_true, decide_eq_true_eq] at hx
          exact hx.2
        omega
      · omega
    · have hcount := countP_born (m := m) hR hrest (hlast.trans hle)
      rw [show (Life.begin x.time).count = 1 from rfl] at hcount
      rw [List.countP_cons]
      split
      · rename_i hx
        have : x.rank ≤ m := by
          simp only [within, Bool.and_eq_true, decide_eq_true_eq] at hx
          exact hx.2
        omega
      · omega

theorem countP_some (hR : ∀ l t, R l t → l.born + W < t) (h : Lives C R (some l) hs) (hcount : 0 < l.count) :
    hs.countP (within m t W) ≤ 2 * m - 1 := by
  induction hs generalizing l with
  | nil => exact Nat.zero_le _
  | cons x hs ih =>
    by_cases hbefore : x.time < t
    · have hx : within m t W x = false := by simp [within]; omega
      rw [List.countP_cons_of_neg (by simp [hx])]
      obtain ⟨-, ⟨-, -, hrest⟩ | ⟨-, -, hrest⟩⟩ := h
      · exact ih hrest (Nat.succ_pos _)
      · exact ih hrest Nat.one_pos
    · have hx : within m t W x = true → 1 ≤ m ∧ x.rank ≤ m := by
        intro hx
        simp only [within, Bool.and_eq_true, decide_eq_true_eq] at hx
        obtain ⟨-, ⟨-, hrank, -⟩ | ⟨-, hrank, -⟩⟩ := h <;> omega
      rw [List.countP_cons]
      obtain ⟨-, ⟨-, hrank, hrest⟩ | ⟨-, hrank, hrest⟩⟩ := h
      · have hle := countP_last (m := m) hR hrest (not_lt.mp hbefore)
        rw [show (l.goOn x.time).count = l.count + 1 from rfl] at hle
        split
        · rename_i hin
          have := hx hin
          omega
        · omega
      · have hle := countP_born (m := m) hR hrest (not_lt.mp hbefore)
        rw [show (Life.begin x.time).count = 1 from rfl] at hle
        split
        · rename_i hin
          have := hx hin
          omega
        · omega

/-- A window of length `W` has at most `2 * m - 1` hits of rank at most `m`. -/
theorem countP_le (hR : ∀ l t, R l t → l.born + W < t) (h : Lives C R none hs) :
    hs.countP (within m t W) ≤ 2 * m - 1 := by
  cases hs with
  | nil => exact Nat.zero_le _
  | cons x hs =>
    obtain ⟨hrank, hrest⟩ := h
    by_cases hbefore : x.time < t
    · have hx : within m t W x = false := by simp [within]; omega
      rw [List.countP_cons_of_neg (by simp [hx])]
      exact countP_some hR hrest Nat.one_pos
    · have hle := countP_born (m := m) hR hrest (not_lt.mp hbefore)
      rw [show (Life.begin x.time).count = 1 from rfl] at hle
      rw [List.countP_cons]
      split
      · rename_i hx
        have : x.rank ≤ m := by
          simp only [within, Bool.and_eq_true, decide_eq_true_eq] at hx
          exact hx.2
        omega
      · omega

/-- The hits of a life are those before it in it; behind the end of the life they are all in `hs`. -/
theorem rank_from (hC : ∀ l t, C l t → t ≤ l.born + W) {x : Hit} {before after : List Hit}
    (h : Lives C R (some l) (before ++ x :: after)) (hborn : l.born ≤ l.last) :
    x.rank ≤ (before ++ [x]).countP (fun h => x.time ≤ h.time + W) + l.count ∧
      (l.born + W < x.time → x.rank ≤ (before ++ [x]).countP fun h => x.time ≤ h.time + W) := by
  induction before generalizing l with
  | nil =>
    obtain ⟨-, ⟨hgo, hrank, -⟩ | ⟨-, hrank, -⟩⟩ := h
    · refine ⟨by simp [hrank], fun hlate => ?_⟩
      have := hC l x.time hgo
      omega
    · simp [hrank]
  | cons y before ih =>
    rw [List.cons_append, List.countP_cons]
    obtain ⟨hlast, ⟨hgo, hrank, hrest⟩ | ⟨-, hrank, hrest⟩⟩ := h
    · obtain ⟨hle, hlate⟩ := ih hrest (hborn.trans hlast)
      rw [show (l.goOn y.time).count = l.count + 1 from rfl] at hle
      rw [show (l.goOn y.time).born = l.born from rfl] at hlate
      refine ⟨?_, fun hborn' => (hlate hborn').trans (Nat.le_add_right _ _)⟩
      by_cases hy : x.time ≤ y.time + W
      · simp only [hy, decide_true, if_true]
        omega
      · have := hlate (by omega)
        omega
    · obtain ⟨hle, hlate⟩ := ih hrest le_rfl
      rw [show (Life.begin y.time).count = 1 from rfl] at hle
      rw [show (Life.begin y.time).born = y.time from rfl] at hlate
      have hall : x.rank ≤ (before ++ [x]).countP (fun h => x.time ≤ h.time + W) +
          if x.time ≤ y.time + W then 1 else 0 := by
        by_cases hy : x.time ≤ y.time + W
        · rw [if_pos hy]
          exact hle
        · rw [if_neg hy]
          exact hlate (not_le.mp hy)
      simp only [decide_eq_true_eq]
      exact ⟨hall.trans (Nat.le_add_right _ _), fun _ => hall⟩

/-- A hit of rank `n` is the last of `n` hits within `W`. -/
theorem rank_le (hC : ∀ l t, C l t → t ≤ l.born + W) {x : Hit} {before after : List Hit}
    (h : Lives C R none (before ++ x :: after)) :
    x.rank ≤ (before ++ [x]).countP fun h => x.time ≤ h.time + W := by
  cases before with
  | nil => simp [h.1]
  | cons y before =>
    obtain ⟨hrank, hrest⟩ := h
    obtain ⟨hle, hlate⟩ := rank_from hC hrest le_rfl
    rw [show (Life.begin y.time).count = 1 from rfl] at hle
    rw [show (Life.begin y.time).born = y.time from rfl] at hlate
    rw [List.cons_append, List.countP_cons]
    by_cases hy : x.time ≤ y.time + W
    · simp only [hy, decide_true, if_true]
      exact hle
    · exact (hlate (not_le.mp hy)).trans (Nat.le_add_right _ _)

end Lives
