import Mathlib.Tactic
import Mathlib.Data.List.Forall2

/-!
# Computations in `Except`

* `mapM_ok`, `mapM_eq_ok`: a computation that ends well in every step of a list ends well on the
  whole list, and the other way round.
* `foldlM_append`: a loop that only appends.
* `Ends`: a computation that ends with a certain error or with a certain value, and how such
  computations compose (`Ends.bind`, `Ends.foldlM`).
-/

namespace Except

variable {ε α β γ : Type}

/-- What a chain of two computations that ended well says of each of them. -/
theorem bind_eq_ok {x : Except ε α} {f : α → Except ε β} {b : β} :
    (x >>= f) = .ok b ↔ ∃ a, x = .ok a ∧ f a = .ok b := by
  cases x with
  | error e => simp [bind, Except.bind]
  | ok a => simp [bind, Except.bind]

/-- What fails in a chain of two computations. -/
theorem bind_eq_error {x : Except ε α} {f : α → Except ε β} {e : ε} :
    (x >>= f) = .error e ↔ x = .error e ∨ ∃ a, x = .ok a ∧ f a = .error e := by
  cases x with
  | error e => simp [bind, Except.bind]
  | ok a => simp [bind, Except.bind]

theorem pure_ne_error {a : α} {e : ε} : (pure a : Except ε α) ≠ .error e := nofun

theorem pure_eq_ok {a b : α} : (pure a : Except ε α) = .ok b ↔ a = b := by
  simp [pure, Except.pure]

@[simp] theorem ok_bind (a : α) (f : α → Except ε β) : ((.ok a : Except ε α) >>= f) = f a := rfl

@[simp] theorem error_bind (e : ε) (f : α → Except ε β) :
    ((.error e : Except ε α) >>= f) = .error e := rfl

/-- The value that is there, or the error. -/
def ofOption (o : Option α) (err : ε) : Except ε α := o.elim (.error err) .ok

@[simp] theorem ofOption_eq_ok {o : Option α} {err : ε} {a : α} :
    ofOption o err = .ok a ↔ o = some a := by
  cases o <;> simp [ofOption]

theorem ofOption_eq_error {o : Option α} {err e : ε} :
    ofOption o err = .error e ↔ o = none ∧ err = e := by
  cases o <;> simp [ofOption]

/-- A check. -/
def require (c : Prop) [Decidable c] (err : ε) : Except ε Unit := if c then .ok () else .error err

@[simp] theorem require_eq_ok {c : Prop} [Decidable c] {err : ε} {u : Unit} :
    require c err = .ok u ↔ c := by
  unfold require
  split <;> simp [*]

theorem require_eq_error {c : Prop} [Decidable c] {err e : ε} :
    require c err = .error e ↔ ¬c ∧ err = e := by
  unfold require
  split <;> simp [*]

theorem mapM_ok {f : α → Except ε β} {P : α → β → Prop} {l : List α}
    (h : ∀ a ∈ l, ∃ b, f a = .ok b ∧ P a b) : ∃ bs, l.mapM f = .ok bs ∧ List.Forall₂ P l bs := by
  induction l with
  | nil => exact ⟨[], rfl, .nil⟩
  | cons a l ih =>
    obtain ⟨b, hb, hP⟩ := h a List.mem_cons_self
    obtain ⟨bs, hbs, hPs⟩ := ih fun x hx => h x (List.mem_cons_of_mem _ hx)
    exact ⟨b :: bs, by rw [List.mapM_cons, hb, hbs]; rfl, .cons hP hPs⟩

theorem mapM_eq_ok {f : α → Except ε β} {l : List α} {bs : List β} (h : l.mapM f = .ok bs) :
    List.Forall₂ (fun a b => f a = .ok b) l bs := by
  induction l generalizing bs with
  | nil =>
    obtain rfl : [] = bs := by simpa [pure, Except.pure] using h
    exact .nil
  | cons a l ih =>
    rw [List.mapM_cons] at h
    obtain ⟨b, hb, h⟩ := bind_eq_ok.mp h
    obtain ⟨bs', hbs, h⟩ := bind_eq_ok.mp h
    cases h
    exact .cons hb (ih hbs)

/-- Every result is the result of an element. -/
theorem exists_of_mapM {f : α → Except ε β} {l : List α} {bs : List β} (h : l.mapM f = .ok bs) :
    ∀ b ∈ bs, ∃ a ∈ l, f a = .ok b := by
  have hall := mapM_eq_ok h
  clear h
  induction hall with
  | nil => simp
  | @cons a b l bs hb _ ih =>
    refine List.forall_mem_cons.mpr ⟨⟨a, List.mem_cons_self, hb⟩, fun b' hb' => ?_⟩
    obtain ⟨a', ha', h'⟩ := ih b' hb'
    exact ⟨a', List.mem_cons_of_mem _ ha', h'⟩

/-- A loop that only appends: what each round appends. -/
theorem foldlM_append {f : List β → α → Except ε (List β)} {P : α → List β → Prop} {l : List α}
    (hf : ∀ a ∈ l, ∀ out out', f out a = .ok out' → ∃ rows, out' = out ++ rows ∧ P a rows)
    {out out' : List β} (h : l.foldlM f out = .ok out') :
    ∃ blocks, out' = out ++ blocks.flatten ∧ List.Forall₂ P l blocks := by
  induction l generalizing out with
  | nil =>
    obtain rfl : out = out' := by simpa [pure_eq_ok] using h
    exact ⟨[], by simp, .nil⟩
  | cons a l ih =>
    rw [List.foldlM_cons, bind_eq_ok] at h
    obtain ⟨_, ha, hl⟩ := h
    obtain ⟨rows, rfl, hrows⟩ := hf a List.mem_cons_self _ _ ha
    obtain ⟨blocks, rfl, hblocks⟩ := ih (fun b hb => hf b (List.mem_cons_of_mem a hb)) hl
    exact ⟨rows :: blocks, by simp, .cons hrows hblocks⟩

/-! ## What a computation ends with -/

variable {E : ε → Prop} {P : α → Prop} {Q : β → Prop}

/-- The error satisfies `E`, or the value `P`. -/
def Ends (E : ε → Prop) (P : α → Prop) (x : Except ε α) : Prop :=
  match x with
  | .ok a => P a
  | .error e => E e

theorem Ends.ok {a : α} (h : P a) : Ends E P (.ok a) := h

theorem Ends.error {e : ε} (h : E e) : Ends E P (.error e : Except ε α) := h

theorem Ends.bind {x : Except ε α} {f : α → Except ε β} (hx : Ends E P x)
    (hf : ∀ a, P a → Ends E Q (f a)) : Ends E Q (x >>= f) := by
  cases x with
  | ok a => exact hf a hx
  | error e => exact hx

theorem Ends.mapM {f : α → Except ε β} {l : List α} (hf : ∀ a ∈ l, Ends E Q (f a)) :
    Ends E (fun bs => bs.length = l.length ∧ ∀ b ∈ bs, Q b) (l.mapM f) := by
  induction l with
  | nil => exact .ok ⟨rfl, by simp⟩
  | cons a l ih =>
    obtain ⟨ha, hl⟩ := List.forall_mem_cons.mp hf
    rw [List.mapM_cons]
    refine ha.bind fun b hb => (ih hl).bind fun bs hbs => .ok ⟨?_, ?_⟩
    · rw [List.length_cons, hbs.1, List.length_cons]
    · exact List.forall_mem_cons.mpr ⟨hb, hbs.2⟩

/-- A fold whose step takes a state that is good for `t` to one that is good for `t` and the value of
the element. -/
theorem Ends.foldlM {S : Int → α → Prop} {f : α → β → Except ε α} {v : β → Int} {l : List β}
    (hf : ∀ b ∈ l, ∀ t a, S t a → Ends E (S (t + v b)) (f a b)) {t : Int} {a : α} (h : S t a) :
    Ends E (S (t + (l.map v).sum)) (l.foldlM f a) := by
  induction l generalizing t a with
  | nil =>
    rw [List.foldlM_nil, List.map_nil, List.sum_nil, Int.add_zero]
    exact h
  | cons b l ih =>
    rw [List.foldlM_cons]
    refine (hf b List.mem_cons_self t a h).bind fun a' h' => ?_
    have hrest := ih (fun x hx => hf x (List.mem_cons_of_mem b hx)) h'
    rw [List.map_cons, List.sum_cons, ← Int.add_assoc]
    exact hrest

end Except
