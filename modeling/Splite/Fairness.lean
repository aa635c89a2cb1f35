import Splite.SplitEngine

/-!
# How fair a split is (`services/splitEngine.js`)

* `allocateWithZeros_near`: one division misses no quota by a céntimo, and a weight of zero gets nothing.
* `FairShare`: what one person has of some memberships misses what the exact shares come to by less than three
  céntimos for each, and is nothing when no line of theirs costs anything.
* `preview_fair`: the amounts of an accepted preview are fair.
-/

namespace Splite

open Apportion

/-! ## One division -/

theorem near_rat {total sum w p : Int} (hs : 0 < sum) (h : Near total sum w p) :
    |(p : ℚ) - total * (w / sum)| < 1 := by
  obtain ⟨hlow, hhigh⟩ := h
  have hsq : (0 : ℚ) < sum := by exact_mod_cast hs
  have hlow' : (total : ℚ) * w - sum < p * sum := by exact_mod_cast hlow
  have hhigh' : (p : ℚ) * sum < total * w + sum := by exact_mod_cast hhigh
  have hq : (total : ℚ) * (w / sum) * sum = total * w := by
    field_simp
  rw [abs_lt]
  constructor
  · by_contra hle
    have := mul_le_mul_of_nonneg_right (not_lt.mp hle) hsq.le
    linarith [sub_mul (p : ℚ) (total * (w / sum)) sum]
  · by_contra hle
    have := mul_le_mul_of_nonneg_right (not_lt.mp hle) hsq.le
    linarith [sub_mul (p : ℚ) (total * (w / sum)) sum]

theorem floor_or_ceil {p : Int} {q : ℚ} (h : |(p : ℚ) - q| < 1) : p = ⌊q⌋ ∨ p = ⌈q⌉ := by
  obtain ⟨hlow, hhigh⟩ := abs_lt.mp h
  rcases le_or_gt (p : ℚ) q with hle | hlt
  · exact .inl (Int.floor_eq_iff.mpr ⟨hle, by linarith⟩).symm
  · exact .inr (Int.ceil_eq_iff.mpr ⟨by linarith, hlt.le⟩).symm

theorem near_zero {sum w p : Int} (hs : 0 < sum) (h : Near 0 sum w p) : p = 0 := by
  obtain ⟨hlow, hhigh⟩ := h
  rw [zero_mul, zero_sub, zero_add] at *
  have hlt : p < 1 := by
    by_contra hge
    have := mul_le_mul_of_nonneg_right (not_lt.mp hge) hs.le
    omega
  have hgt : -1 < p := by
    by_contra hle
    have := mul_le_mul_of_nonneg_right (not_lt.mp hle) hs.le
    omega
  omega

theorem spread_forall₂ {R : Int → Int → Prop} {weights parts : List Int}
    (hzero : ∀ w ∈ weights, ¬0 < w → R w 0) (h : List.Forall₂ R (weights.filter (0 < ·)) parts) :
    List.Forall₂ R weights (spread weights parts) := by
  induction weights generalizing parts with
  | nil => exact .nil
  | cons w ws ih =>
    obtain ⟨hw0, hzero⟩ := List.forall_mem_cons.mp hzero
    unfold spread
    by_cases hw : 0 < w
    · rw [List.filter_cons_of_pos (by simpa using hw)] at h
      obtain ⟨p, ps, hp, hps, rfl⟩ := List.forall₂_cons_left_iff.mp h
      rw [if_pos hw]
      exact .cons hp (ih hzero hps)
    · rw [List.filter_cons_of_neg (by simpa using hw)] at h
      rw [if_neg hw]
      exact .cons (hw0 hw) (ih hzero h)

theorem sum_contributing {weights : List Int} (hw : ∀ w ∈ weights, 0 ≤ w) :
    (weights.filter (0 < ·)).sum = weights.sum := by
  induction weights with
  | nil => rfl
  | cons w ws ih =>
    obtain ⟨h, hs⟩ := List.forall_mem_cons.mp hw
    by_cases hpos : 0 < w
    · rw [List.filter_cons_of_pos (by simpa using hpos), List.sum_cons, List.sum_cons, ih hs]
    · rw [List.filter_cons_of_neg (by simpa using hpos), List.sum_cons, ih hs]
      omega

/-- The part of `w` misses its quota by less than a céntimo, and is nothing of nothing. -/
def NearQuota (total sum w p : Int) : Prop :=
  |(p : ℚ) - total * (w / sum)| < 1 ∧ (w = 0 ∨ total = 0 → p = 0)

theorem allocateWithZeros_near {total : Int} {weights parts : List Int} (ht : 0 ≤ total)
    (hw : ∀ w ∈ weights, 0 ≤ w) (h : allocateWithZeros total weights = .ok parts) :
    List.Forall₂ (NearQuota total weights.sum) weights parts := by
  have hzero : ∀ w ∈ weights, ¬0 < w → NearQuota total weights.sum w 0 := by
    intro w hmem hpos
    obtain rfl : w = 0 := le_antisymm (not_lt.mp hpos) (hw w hmem)
    simp [NearQuota]
  unfold allocateWithZeros at h
  dsimp only at h
  split at h
  · rename_i hnone
    split at h
    · cases h
    · obtain rfl : weights.map (fun _ => (0 : Int)) = parts := Except.ok.inj h
      refine List.forall₂_map_right_iff.mpr (List.forall₂_same.mpr fun w hmem => hzero w hmem ?_)
      simpa using List.filter_eq_nil_iff.mp hnone w hmem
  · rename_i hsome
    have hpos : ∀ w ∈ weights.filter (0 < ·), 0 < w := fun w hw => by simpa using (List.mem_filter.mp hw).2
    obtain ⟨parts', hparts, happ⟩ := allocate_apportions ht hsome hpos
    have hs : 0 < weights.sum := sum_contributing hw ▸ List.sum_pos _ hpos hsome
    rw [hparts] at h
    obtain rfl : spread weights parts' = parts := Except.ok.inj h
    refine spread_forall₂ hzero (List.forall₂_iff_get.mpr ⟨happ.length_eq, fun i hi hi' => ?_⟩)
    have hn := List.forall₂_iff_get.mp happ.near |>.2 i hi hi'
    rw [sum_contributing hw] at hn
    have hwi := hpos _ (List.getElem_mem hi)
    refine ⟨near_rat hs hn, ?_⟩
    rintro (hz | rfl)
    · exact absurd hz hwi.ne'
    · exact near_zero hs hn

theorem allocateWithZeros_nonneg {total : Int} {weights parts : List Int} (ht : 0 ≤ total)
    (h : allocateWithZeros total weights = .ok parts) : ∀ p ∈ parts, 0 ≤ p := by
  have hends := allocateWithZeros_exact weights ht
  rw [h] at hends
  exact hends.nonneg

/-! ## Memberships -/

/-- What a membership of a claim on a line is worth: its part of what is outstanding, by the price of the
line, the units that are claimed and the people on the claim. -/
def exactShare (outstanding : Int) (items : List BillItem) (membership : BillItem × SplitClaim) : ℚ :=
  outstanding * (membership.1.subtotalMinor / (items.map (·.subtotalMinor)).sum) *
    (membership.2.quantity.getD membership.1.quantity / membership.1.quantity) *
    (1 / membership.2.participantIds.length)

/-- The memberships of a person on the claims of a line. -/
def membershipsOn (claims : List SplitClaim) (id : String) (item : BillItem) :
    List (BillItem × SplitClaim) :=
  (claimsOf claims item).flatMap fun claim =>
    (claim.participantIds.filter (· = id)).map fun _ => (item, claim)

/-- The memberships of a person. -/
def memberships (items : List BillItem) (claims : List SplitClaim) (id : String) :
    List (BillItem × SplitClaim) := items.flatMap (membershipsOn claims id)

/-- `amount` is what some memberships are worth, up to three céntimos for each. -/
structure FairShare (outstanding : Int) (items : List BillItem) (ms : List (BillItem × SplitClaim))
    (amount : Int) : Prop where
  near : ms ≠ [] → |(amount : ℚ) - (ms.map (exactShare outstanding items)).sum| < 3 * ms.length
  none : (∀ p ∈ ms, p.1.subtotalMinor = 0) → amount = 0

section FairShare

variable {outstanding : Int} {items : List BillItem} {ms ms' : List (BillItem × SplitClaim)}
  {amount amount' : Int}

theorem FairShare.nil : FairShare outstanding items [] 0 := ⟨fun h => absurd rfl h, fun _ => rfl⟩

theorem FairShare.append (h : FairShare outstanding items ms amount)
    (h' : FairShare outstanding items ms' amount') :
    FairShare outstanding items (ms ++ ms') (amount + amount') := by
  refine ⟨fun _ => ?_, fun hzero => ?_⟩
  · by_cases hms : ms = []
    · obtain rfl : amount = 0 := h.none (by simp [hms])
      by_cases hms' : ms' = []
      · simp_all
      · simpa [hms] using h'.near hms'
    by_cases hms' : ms' = []
    · obtain rfl : amount' = 0 := h'.none (by simp [hms'])
      simpa [hms'] using h.near hms
    · have h1 := abs_lt.mp (h.near hms)
      have h2 := abs_lt.mp (h'.near hms')
      rw [List.map_append, List.sum_append, List.length_append, abs_lt]
      push_cast
      constructor <;> linarith
  · obtain ⟨hz, hz'⟩ := List.forall_mem_append.mp hzero
    rw [h.none hz, h'.none hz', add_zero]

/-- An error of less than one, scaled down. -/
theorem abs_mul_lt_one {x t : ℚ} (hx : |x| < 1) (h0 : 0 ≤ t) (h1 : t ≤ 1) : |x * t| < 1 := by
  rw [abs_mul, abs_of_nonneg h0]
  calc |x| * t ≤ |x| * 1 := mul_le_mul_of_nonneg_left h1 (abs_nonneg x)
    _ = |x| := mul_one _
    _ < 1 := hx

/-- The errors of three divisions, each within what the one before gave, are less than three. -/
theorem three_roundings {a b t r x y z : ℚ} (hx : |x - a| < 1) (hy : |y - x * t| < 1)
    (hz : |z - y * r| < 1) (ht0 : 0 ≤ t) (ht1 : t ≤ 1) (hr0 : 0 ≤ r) (hr1 : r ≤ 1) (hb : b = a * t * r) :
    |z - b| < 3 := by
  have h1 := abs_lt.mp (abs_mul_lt_one hy hr0 hr1)
  have h2 := abs_lt.mp (abs_mul_lt_one (abs_mul_lt_one hx ht0 ht1) hr0 hr1)
  have h3 := abs_lt.mp hz
  have hsum : z - b = (z - y * r) + (y - x * t) * r + (x - a) * t * r := by
    rw [hb]
    ring
  rw [hsum, abs_lt]
  constructor <;> linarith

/-! ## What is credited -/

/-- What a person owes. -/
def owedBy (owed : List (String × Int)) (id : String) : Int := (owed.lookup id).getD 0

/-- From `owed` to `owed'` a person was credited with what some memberships are fairly worth. -/
def Credited (outstanding : Int) (items : List BillItem) (id : String) (ms : List (BillItem × SplitClaim))
    (owed owed' : List (String × Int)) : Prop :=
  owed'.map Prod.fst = owed.map Prod.fst ∧
    (id ∈ owed.map Prod.fst → ∃ amount, owedBy owed' id = owedBy owed id + amount ∧
      FairShare outstanding items ms amount)

variable {id : String} {owed owed' owed'' : List (String × Int)}

theorem Credited.refl : Credited outstanding items id [] owed owed :=
  ⟨rfl, fun _ => ⟨0, (add_zero _).symm, .nil⟩⟩

theorem Credited.trans (h : Credited outstanding items id ms owed owed')
    (h' : Credited outstanding items id ms' owed' owed'') :
    Credited outstanding items id (ms ++ ms') owed owed'' := by
  refine ⟨h'.1.trans h.1, fun hid => ?_⟩
  obtain ⟨amount, hamount, hfair⟩ := h.2 hid
  obtain ⟨amount', hamount', hfair'⟩ := h'.2 (h.1 ▸ hid)
  exact ⟨amount + amount', by rw [hamount', hamount, add_assoc], hfair.append hfair'⟩

/-- A loop credits what its rounds credit. -/
theorem Credited.foldlM {α : Type} {f : List (String × Int) → α → Except Err (List (String × Int))}
    {of : α → List (BillItem × SplitClaim)} {l : List α}
    (hf : ∀ a ∈ l, ∀ owed owed', f owed a = .ok owed' → Credited outstanding items id (of a) owed owed')
    (h : l.foldlM f owed = .ok owed') : Credited outstanding items id (l.flatMap of) owed owed' := by
  induction l generalizing owed with
  | nil =>
    obtain rfl : owed = owed' := Except.ok.inj h
    exact .refl
  | cons a l ih =>
    rw [List.foldlM_cons, Except.bind_eq_ok] at h
    obtain ⟨owed₁, ha, hl⟩ := h
    rw [List.flatMap_cons]
    exact (hf a List.mem_cons_self _ _ ha).trans
      (ih (fun b hb => hf b (List.mem_cons_of_mem _ hb)) hl)

theorem owedBy_zero (h : ∀ x ∈ owed, x.2 = 0) : owedBy owed id = 0 := by
  induction owed with
  | nil => rfl
  | cons x xs ih =>
    obtain ⟨k, v⟩ := x
    obtain ⟨rfl, hxs⟩ := List.forall_mem_cons.mp h
    unfold owedBy at ih ⊢
    rw [List.lookup_cons]
    split
    · rfl
    · exact ih hxs

theorem owedBy_credit {other : String} (hid : id ∈ owed.map Prod.fst) :
    owedBy (credit owed other amount) id = owedBy owed id + if other = id then amount else 0 := by
  induction owed with
  | nil => simp at hid
  | cons x xs ih =>
    obtain ⟨k, v⟩ := x
    have hcons : credit ((k, v) :: xs) other amount =
        (k, if k = other then v + amount else v) :: credit xs other amount := by
      unfold credit
      rw [List.map_cons]
      by_cases hk : k = other <;> simp [hk]
    rw [hcons]
    unfold owedBy at ih ⊢
    rw [List.lookup_cons, List.lookup_cons]
    by_cases hk : id = k
    · subst hk
      by_cases hother : id = other
      · simp [hother]
      · simp [hother, Ne.symm hother]
    · have hbeq : (id == k) = false := by simpa using hk
      rw [hbeq]
      exact ih (by simpa [hk] using hid)

theorem credit_fst (owed : List (String × Int)) (other : String) (amount : Int) :
    (credit owed other amount).map Prod.fst = owed.map Prod.fst := by
  unfold credit
  rw [List.map_map]
  refine List.map_congr_left fun x _ => ?_
  simp only [Function.comp_apply]
  split <;> rfl

/-- The shares of one claim are credited to the people on it. -/
theorem credited_shares {item : BillItem} {claim : SplitClaim} {claimants : List String}
    {shares : List Int} (hlen : shares.length = claimants.length)
    (hshares : ∀ x ∈ shares, FairShare outstanding items [(item, claim)] x) :
    Credited outstanding items id ((claimants.filter (· = id)).map fun _ => (item, claim)) owed
      ((claimants.zip shares).foldl (fun owed x => credit owed x.1 x.2) owed) := by
  induction claimants generalizing owed shares with
  | nil => exact .refl
  | cons c cs ih =>
    cases shares with
    | nil => simp at hlen
    | cons x xs =>
      obtain ⟨hx, hxs⟩ := List.forall_mem_cons.mp hshares
      rw [List.zip_cons_cons, List.foldl_cons]
      have hone : Credited outstanding items id (if c = id then [(item, claim)] else []) owed
          (credit owed c x) := by
        refine ⟨credit_fst owed c x, fun hid => ⟨_, owedBy_credit hid, ?_⟩⟩
        split
        · exact hx
        · exact .nil
      have hboth := hone.trans (ih (by simpa using hlen) hxs)
      by_cases hc : c = id
      · rw [if_pos hc] at hboth
        rw [List.filter_cons_of_pos (by simpa using hc)]
        exact hboth
      · rw [if_neg hc] at hboth
        rw [List.filter_cons_of_neg (by simpa using hc)]
        exact hboth

theorem creditClaim_fair {item : BillItem} {claim : SplitClaim × Int} {itemVes : Int}
    (hitem : 0 < item.quantity) (hv : 0 ≤ claim.2)
    (hquantity : 0 ≤ claim.1.quantity.getD item.quantity ∧
      claim.1.quantity.getD item.quantity ≤ item.quantity)
    (hline : NearQuota outstanding (items.map (·.subtotalMinor)).sum item.subtotalMinor itemVes)
    (hclaim : NearQuota itemVes item.quantity (claim.1.quantity.getD item.quantity) claim.2)
    (h : creditClaim owed claim = .ok owed') : Credited outstanding items id
      ((claim.1.participantIds.filter (· = id)).map fun _ => (item, claim.1)) owed owed' := by
  unfold creditClaim at h
  rw [Except.bind_eq_ok] at h
  obtain ⟨shares, hshares, h⟩ := h
  obtain rfl := Except.ok.inj h
  have hnear := allocateWithZeros_near hv (by simp) hshares
  have hsum : (claim.1.participantIds.map fun _ => (1 : Int)).sum = claim.1.participantIds.length := by
    simp
  rw [hsum] at hnear
  refine credited_shares (by simpa using hnear.length_eq.symm) fun x hx => ?_
  obtain ⟨w, hw, hxnear, hxzero⟩ : ∃ w, w ∈ claim.1.participantIds.map (fun _ => (1 : Int)) ∧
      NearQuota claim.2 claim.1.participantIds.length w x := by
    obtain ⟨i, hi, rfl⟩ := List.getElem_of_mem hx
    have hi' := hnear.length_eq ▸ hi
    exact ⟨_, List.getElem_mem hi', List.forall₂_iff_get.mp hnear |>.2 i hi' hi⟩
  obtain ⟨_, hperson, rfl⟩ := List.mem_map.mp hw
  have hpeople : (1 : ℚ) ≤ claim.1.participantIds.length := by
    exact_mod_cast List.length_pos_of_mem hperson
  have hunits : (0 : ℚ) < item.quantity := by exact_mod_cast hitem
  refine ⟨fun _ => ?_, fun hzero => ?_⟩
  · have hq0 : (0 : ℚ) ≤ claim.1.quantity.getD item.quantity := by exact_mod_cast hquantity.1
    have hq1 : (claim.1.quantity.getD item.quantity : ℚ) ≤ item.quantity := by exact_mod_cast hquantity.2
    have hthree := three_roundings (b := exactShare outstanding items (item, claim.1)) hline.1 hclaim.1
      (by simpa using hxnear) (div_nonneg hq0 hunits.le) ((div_le_one hunits).mpr hq1)
      (by positivity) ((div_le_one (by linarith)).mpr hpeople) rfl
    simpa using hthree
  · have hnothing := hline.2 (.inl (hzero _ (List.mem_singleton_self _)))
    exact hxzero (.inr (hclaim.2 (.inr hnothing)))

theorem flatMap_zip_fst {α β γ : Type} {l : List α} {l' : List β} (g : α → List γ)
    (h : l.length ≤ l'.length) : (l.zip l').flatMap (fun x => g x.1) = l.flatMap g := by
  conv_rhs => rw [← List.map_fst_zip h, List.flatMap_map]

theorem creditItem_fair {claims : List SplitClaim} {line : BillItem × Int} (hitem : line.1.violated = none)
    (hclaims : ∀ c ∈ claims, ∀ quantity ∈ c.quantity, 1 ≤ quantity) (hv : 0 ≤ line.2)
    (hline : NearQuota outstanding (items.map (·.subtotalMinor)).sum line.1.subtotalMinor line.2)
    (h : creditItem claims owed line = .ok owed') :
    Credited outstanding items id (membershipsOn claims id line.1) owed owed' := by
  unfold creditItem at h
  dsimp only at h
  split at h
  · cases h
  rename_i hcomplete
  rw [Except.bind_eq_ok] at h
  obtain ⟨perClaim, hper, h⟩ := h
  have hunits := (BillItem.priced hitem).2
  have hpos : ∀ w ∈ (claimsOf claims line.1).map (fun c => c.quantity.getD line.1.quantity), 0 < w := by
    intro w hw
    obtain ⟨c, hc, rfl⟩ := List.mem_map.mp hw
    cases hq : c.quantity with
    | none => exact hunits
    | some q => exact hclaims c (List.mem_filter.mp hc).1 q hq
  have hnear := allocateWithZeros_near hv (fun w hw => (hpos w hw).le) hper
  have hlen : (claimsOf claims line.1).length = perClaim.length := by simpa using hnear.length_eq
  have hof : membershipsOn claims id line.1 = ((claimsOf claims line.1).zip perClaim).flatMap fun x =>
      (x.1.participantIds.filter (· = id)).map fun _ => (line.1, x.1) := by
    unfold membershipsOn
    exact (flatMap_zip_fst _ hlen.le).symm
  rw [hof]
  refine Credited.foldlM (fun x hx owed owed' hx' => ?_) h
  have hmem : x.1 ∈ claimsOf claims line.1 → x.1.quantity.getD line.1.quantity ∈
      (claimsOf claims line.1).map fun c => c.quantity.getD line.1.quantity := fun hc =>
    List.mem_map_of_mem (f := fun c : SplitClaim => c.quantity.getD line.1.quantity) hc
  obtain ⟨hxnear, hxpart, hxle⟩ : NearQuota line.2 line.1.quantity (x.1.quantity.getD line.1.quantity) x.2 ∧
      x.2 ∈ perClaim ∧ x.1.quantity.getD line.1.quantity ≤ line.1.quantity := by
    obtain ⟨hxc, hxp⟩ := List.of_mem_zip hx
    have hsum : ((claimsOf claims line.1).map fun c => c.quantity.getD line.1.quantity).sum =
        line.1.quantity := by
      by_contra hne
      exact hcomplete ⟨List.ne_nil_of_mem hxc, hne⟩
    rw [hsum] at hnear
    refine ⟨?_, hxp, ?_⟩
    · exact (List.forall₂_iff_zip.mp (List.forall₂_map_left_iff.mp hnear)).2 hx
    · exact (List.single_le_sum (fun w hw => (hpos w hw).le) _ (hmem hxc)).trans hsum.le
  have hxpos := hpos _ (hmem (List.of_mem_zip hx).1)
  have hvalue := allocateWithZeros_nonneg hv hper _ hxpart
  exact creditClaim_fair hunits hvalue ⟨hxpos.le, hxle⟩ hline hxnear hx'

/-- What each participant of an accepted split by items has is fair. -/
theorem allocateByItems_fair {participants : List SplitPerson} {claims : List SplitClaim}
    {amounts : List Int} (ho : 0 ≤ outstanding) (hitems : ∀ i ∈ items, i.violated = none)
    (hclaims : ∀ c ∈ claims, ∀ quantity ∈ c.quantity, 1 ≤ quantity)
    (h : allocateByItems outstanding items participants claims = .ok amounts) :
    List.Forall₂ (fun p amount => FairShare outstanding items (memberships items claims p.id) amount)
      participants amounts := by
  unfold allocateByItems at h
  dsimp only at h
  split at h
  · cases h
  split at h
  · cases h
  split at h
  · cases h
  rw [Except.bind_eq_ok] at h
  obtain ⟨perItem, hper, h⟩ := h
  rw [Except.bind_eq_ok] at h
  obtain ⟨owed, howed, h⟩ := h
  obtain rfl := Except.ok.inj h
  have hpriced : ∀ w ∈ items.map (·.subtotalMinor), 0 ≤ w := by
    intro w hw
    obtain ⟨i, hi, rfl⟩ := List.mem_map.mp hw
    exact BillItem.subtotal_nonneg (hitems i hi)
  have hnear := allocateWithZeros_near ho hpriced hper
  have hlen : items.length = perItem.length := by simpa using hnear.length_eq
  refine List.forall₂_map_right_iff.mpr (List.forall₂_same.mpr fun p hp => ?_)
  have hof : memberships items claims p.id = (items.zip perItem).flatMap fun x =>
      membershipsOn claims p.id x.1 := by
    exact (flatMap_zip_fst _ hlen.le).symm
  have hcredited : Credited outstanding items p.id (memberships items claims p.id)
      (participants.map fun p => (p.id, 0)) owed := by
    rw [hof]
    refine Credited.foldlM (fun x hx owed owed' hx' => ?_) howed
    obtain ⟨hxi, hxp⟩ := List.of_mem_zip hx
    exact creditItem_fair (hitems _ hxi) hclaims (allocateWithZeros_nonneg ho hper _ hxp)
      ((List.forall₂_iff_zip.mp (List.forall₂_map_left_iff.mp hnear)).2 hx) hx'
  have hmem : p.id ∈ (participants.map fun p => (p.id, (0 : Int))).map Prod.fst := by
    simpa using ⟨p, hp, rfl⟩
  obtain ⟨amount, hamount, hfair⟩ := hcredited.2 hmem
  have hstart : owedBy (participants.map fun p => (p.id, 0)) p.id = 0 :=
    owedBy_zero (by simp)
  rw [hstart, zero_add] at hamount
  show FairShare _ _ _ (owedBy owed p.id)
  rwa [hamount]

theorem equal_fair {participants : List SplitPerson} {amounts : List Int} (ho : 0 ≤ outstanding)
    (h : allocate outstanding (participants.map fun _ => 1) = .ok amounts) : ∀ amount ∈ amounts,
      amount = ⌊(outstanding : ℚ) / participants.length⌋ ∨
        amount = ⌈(outstanding : ℚ) / participants.length⌉ := by
  intro amount hamount
  have hne : (participants.map fun _ => (1 : Int)) ≠ [] := by
    intro hnil
    rw [hnil] at h
    simp [allocate, not_lt.mpr ho] at h
  obtain ⟨parts, hparts, happ⟩ := allocate_apportions ho hne (by simp)
  obtain rfl : parts = amounts := Except.ok.inj (hparts.symm.trans h)
  obtain ⟨i, hi, rfl⟩ := List.getElem_of_mem hamount
  have hi' := happ.length_eq ▸ hi
  have hnear := near_rat (List.sum_pos _ (by simp) hne) (List.forall₂_iff_get.mp happ.near |>.2 i hi' hi)
  refine floor_or_ceil ?_
  simpa [div_eq_mul_inv] using hnear

/-- An accepted preview is fair: in equal parts every amount is the floor or the ceiling of the quota, and
by items it is what the memberships of the person are worth, up to three céntimos for each. -/
theorem preview_fair {bill : Bill} {items : List BillItem} {r : SplitRequest} {v : SplitPreview}
    (hr : r.Valid) (hitems : ∀ i ∈ items, i.violated = none) (h : preview bill items r = .ok v) :
    (r.mode = .equal → ∀ a ∈ v.allocations,
      a.amountVes = ⌊(v.outstandingVes : ℚ) / r.participants.length⌋ ∨
        a.amountVes = ⌈(v.outstandingVes : ℚ) / r.participants.length⌉) ∧
    (r.mode = .items → ∀ a ∈ v.allocations,
      FairShare v.outstandingVes items (memberships items (r.claims.getD []) a.participantId)
        a.amountVes) := by
  unfold preview at h
  dsimp only at h
  split at h
  · cases h
  split at h
  · cases h
  rename_i hpos
  split at h
  · cases h
  rw [Except.bind_eq_ok] at h
  obtain ⟨amounts, hamounts, h⟩ := h
  split at h
  · cases h
  obtain rfl := Except.ok.inj h
  have ho := le_of_not_ge hpos
  dsimp only
  refine ⟨fun hmode a ha => ?_, fun hmode a ha => ?_⟩
  · obtain ⟨x, hx, rfl⟩ := List.mem_map.mp ha
    simp only [splitAmounts, hmode] at hamounts
    exact equal_fair ho hamounts _ (List.of_mem_zip hx).2
  · obtain ⟨x, hx, rfl⟩ := List.mem_map.mp ha
    simp only [splitAmounts, hmode] at hamounts
    have hclaims : ∀ c ∈ r.claims.getD [], ∀ quantity ∈ c.quantity, 1 ≤ quantity := by
      intro c hc quantity hq
      cases hclaims : r.claims with
      | none => simp [hclaims] at hc
      | some claims =>
        rw [hclaims, Option.getD_some] at hc
        exact (hr.quantities claims hclaims c hc quantity hq).1
    exact (List.forall₂_iff_zip.mp (allocateByItems_fair ho hitems hclaims hamounts)).2 hx

theorem table_fair : ∃ v, preview tableBill tableItems tableRequest = .ok v ∧ ∀ a ∈ v.allocations,
    FairShare v.outstandingVes tableItems
      (memberships tableItems (tableRequest.claims.getD []) a.participantId) a.amountVes := by
  obtain ⟨v, hv⟩ : ∃ v, preview tableBill tableItems tableRequest = .ok v := ⟨_, rfl⟩
  exact ⟨v, hv, (preview_fair tableRequest_valid (by decide) hv).2 rfl⟩

end FairShare

end Splite
