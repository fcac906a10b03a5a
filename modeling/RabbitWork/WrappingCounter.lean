import Mathlib.Algebra.BigOperators.Group.List.Basic
import Mathlib.Order.Compare
import Mathlib.Tactic

/-!
# Counters compared with a target

A loop adds up the items it reads and compares the count with a target after
each of them: it goes on while the count is below, and the first comparison
that is not below is its outcome.  Two such counters over the same items are
compared here, in particular one in machine arithmetic, where the count and
the target wrap around at a modulus and an item may break the loop before it
has an outcome, with the exact one.
-/

namespace Counting

structure Counter (γ ι : Type*) where
  add : γ → ι → γ
  target : γ

namespace Counter

variable {γ δ ι : Type*}

def count (counter : Counter γ ι) (start : γ) (items : List ι) : γ :=
  items.foldl counter.add start

@[simp] theorem count_nil (counter : Counter γ ι) (start : γ) :
    counter.count start [] = start := rfl

@[simp] theorem count_cons
    (counter : Counter γ ι) (start : γ) (item : ι) (items : List ι) :
    counter.count start (item :: items) =
      counter.count (counter.add start item) items := rfl

variable [LinearOrder γ] [LinearOrder δ]

section Outcomes

variable (counter : Counter γ ι)

/-- The count is below the target before each of the items. -/
def Below (start : γ) (items : List ι) : Prop :=
  ∀ k < items.length, counter.count start (items.take k) < counter.target

/-- The items are those read until the comparison has this outcome. -/
structure ComesOut
    (start : γ) (items : List ι) (outcome : Ordering) : Prop where
  below : counter.Below start items
  outcome : compare (counter.count start items) counter.target = outcome

variable (start : γ) (item : ι) (items : List ι)

theorem below_nil : counter.Below start [] := by
  intro k hk
  exact absurd hk (Nat.not_lt_zero k)

theorem below_cons :
    counter.Below start (item :: items) ↔
      start < counter.target ∧
        counter.Below (counter.add start item) items := by
  constructor
  · intro hbelow
    constructor
    · exact hbelow 0 (by simp)
    · intro k hk
      exact hbelow (k + 1) (by simpa using hk)
  · intro hsplit k hk
    cases k with
    | zero => exact hsplit.1
    | succ k => exact hsplit.2 k (by simpa using hk)

theorem comesOut_nil (outcome : Ordering) :
    counter.ComesOut start [] outcome ↔
      compare start counter.target = outcome := by
  constructor
  · intro hout
    exact hout.outcome
  · intro hcompare
    exact ⟨counter.below_nil start, hcompare⟩

theorem comesOut_cons (outcome : Ordering) :
    counter.ComesOut start (item :: items) outcome ↔
      start < counter.target ∧
        counter.ComesOut (counter.add start item) items outcome := by
  constructor
  · intro hout
    obtain ⟨hstart, hbelow⟩ :=
      (counter.below_cons start item items).mp hout.below
    exact ⟨hstart, hbelow, hout.outcome⟩
  · intro hsplit
    have hbelow :=
      (counter.below_cons start item items).mpr
        ⟨hsplit.1, hsplit.2.below⟩
    exact ⟨hbelow, hsplit.2.outcome⟩

/-- What follows the steps of the counter is its outcome. -/
theorem iff_comesOut_of_steps
    {property : γ → List ι → Prop} {outcome : Ordering}
    (hnil : ∀ start,
      property start [] ↔ compare start counter.target = outcome)
    (hopen : ∀ start item items, start < counter.target →
      (property start (item :: items) ↔
        property (counter.add start item) items))
    (hclosed : ∀ start item items, ¬ start < counter.target →
      ¬ property start (item :: items)) :
    property start items ↔ counter.ComesOut start items outcome := by
  induction items generalizing start with
  | nil => rw [hnil, comesOut_nil]
  | cons item items ih =>
      rw [comesOut_cons]
      by_cases hstart : start < counter.target
      · rw [hopen start item items hstart, ih]
        simp [hstart]
      · simp [hclosed start item items hstart, hstart]

end Outcomes

/-! ## Two counters over the same items -/

section Agreement

variable (left : Counter γ ι) (right : Counter δ ι)

/-- The two loops stop at the same items and with the same outcome. -/
def Agree (start : γ) (start' : δ) (items : List ι) : Prop :=
  ∀ read, read <+: items →
    ∀ outcome, outcome ≠ .lt →
      (left.ComesOut start read outcome ↔
        right.ComesOut start' read outcome)

theorem forall_prefix_cons
    {property : List ι → Prop} {item : ι} {items : List ι} :
    (∀ read, read <+: item :: items → property read) ↔
      property [] ∧ ∀ read, read <+: items → property (item :: read) := by
  constructor
  · intro hall
    refine ⟨hall [] List.nil_prefix, ?_⟩
    intro read hread
    exact hall (item :: read) ((List.prefix_cons_inj item).mpr hread)
  · intro hsplit read hread
    rcases List.prefix_cons_iff.mp hread with hnil | ⟨rest, hcons, hrest⟩
    · rw [hnil]
      exact hsplit.1
    · rw [hcons]
      exact hsplit.2 rest hrest

/-- An outcome is known from whether it is `eq` and whether it is `gt`. -/
theorem stops_alike_iff (out out' : Ordering) :
    (∀ outcome, outcome ≠ .lt → (out = outcome ↔ out' = outcome)) ↔
      out = out' := by
  constructor
  · intro halike
    have heq := halike .eq (by decide)
    have hgt := halike .gt (by decide)
    cases out <;> cases out' <;> simp_all
  · intro hout outcome _
    rw [hout]

/-- The loops stop alike exactly if their comparisons agree as long as the
second one goes on. -/
theorem agree_iff (start : γ) (start' : δ) (items : List ι) :
    Agree left right start start' items ↔
      ∀ read, read <+: items → right.Below start' read →
        compare (left.count start read) left.target =
          compare (right.count start' read) right.target := by
  induction items generalizing start start' with
  | nil =>
      simp only [Agree, List.prefix_nil, forall_eq, comesOut_nil,
        stops_alike_iff, below_nil, count_nil, true_imp_iff]
  | cons item items ih =>
      have hih := ih (left.add start item) (right.add start' item)
      simp only [Agree, forall_prefix_cons, comesOut_nil, stops_alike_iff,
        below_nil, count_nil, true_imp_iff, comesOut_cons, below_cons,
        count_cons] at hih ⊢
      apply and_congr_right
      intro hcompare
      by_cases hopen : start' < right.target
      · have hleft : start < left.target := by
          rw [← compare_lt_iff_lt, hcompare, compare_lt_iff_lt]
          exact hopen
        simpa only [hopen, hleft, true_and] using hih
      · have hleft : ¬ start < left.target := by
          rw [← compare_lt_iff_lt, hcompare, compare_lt_iff_lt]
          exact hopen
        simp [hopen, hleft]

end Agreement

/-! ## Wrapping around at a modulus -/

/-- Wrapping around keeps a comparison exactly if a sum below the target stays
below it and one that has reached the target has wrapped as often as it. -/
theorem compare_mod_eq_iff
    {modulus target sum : ℕ} (hsum : sum < target + modulus) :
    compare (sum % modulus) (target % modulus) = compare sum target ↔
      (sum < target → sum % modulus < target % modulus) ∧
        (target ≤ sum → sum / modulus = target / modulus) := by
  have hsumSplit := Nat.div_add_mod sum modulus
  have htargetSplit := Nat.div_add_mod target modulus
  rcases lt_or_ge sum target with hlt | hge
  · rw [compare_lt_iff_lt.mpr hlt, compare_lt_iff_lt]
    simp [hlt, hlt.not_ge]
  · simp only [hge.not_gt, hge, false_imp_iff, true_imp_iff, true_and]
    constructor
    · intro hcompare
      have hnotBelow : ¬ sum % modulus < target % modulus := by
        rw [← compare_lt_iff_lt, hcompare, compare_lt_iff_lt]
        exact hge.not_gt
      have hle : target / modulus ≤ sum / modulus :=
        Nat.div_le_div_right hge
      -- one wrap more would leave the sum short of the wrapped target
      have hlt : sum / modulus < target / modulus + 1 := by
        by_contra hwraps
        have hblocks :=
          Nat.mul_le_mul_left modulus (not_lt.mp hwraps)
        rw [Nat.mul_add, Nat.mul_one] at hblocks
        omega
      omega
    · intro hblock
      rw [hblock] at hsumSplit
      rcases hge.eq_or_lt with heq | hgt
      · rw [heq, compare_eq_iff_eq.mpr rfl, compare_eq_iff_eq.mpr rfl]
      · have hmod : target % modulus < sum % modulus := by
          omega
        rw [compare_gt_iff_gt.mpr hgt, compare_gt_iff_gt.mpr hmod]

section Wrapping

variable (size : ι → ℕ) (breaks : ι → Prop)

def exact (target : ℕ) : Counter ℕ ι where
  add count item := count + size item
  target := target

theorem exact_count (target start : ℕ) (items : List ι) :
    (exact size target).count start items =
      start + (items.map size).sum := by
  induction items generalizing start with
  | nil => simp
  | cons item items ih =>
      rw [count_cons, ih, List.map_cons, List.sum_cons, ← Nat.add_assoc]
      rfl

/-- A count that wraps around.  An item that breaks the loop ends it without
an outcome, unless it takes the count past the target. -/
def wrapping [DecidablePred breaks] (modulus target : ℕ) :
    Counter (WithBot ℕ) ι where
  add count item :=
    WithBot.recBotCoe ⊥
      (fun count =>
        let sum := (count + size item) % modulus
        if breaks item ∧ sum ≤ target % modulus then ⊥
        else WithBot.some sum)
      count
  target := WithBot.some (target % modulus)

/-- Each item that breaks the loop takes the wrapped count past the target. -/
def PassesBreaks (modulus target start : ℕ) (items : List ι) : Prop :=
  ∀ before item, before ++ [item] <+: items → breaks item →
    target % modulus < (start + ((before ++ [item]).map size).sum) % modulus

/-- As long as the exact count goes on and no item breaks the loop, the wrapped
count has not wrapped past the wrapped target, and the sum that ends the loop
has wrapped as often as the target.  Once an item breaks the loop, the exact
count does not reach the target either. -/
def WrapsAlike (modulus target : ℕ) (items : List ι) : Prop :=
  ∀ read, read <+: items → (exact size target).Below 0 read →
    (PassesBreaks size breaks modulus target 0 read →
      ((read.map size).sum < target →
        (read.map size).sum % modulus < target % modulus) ∧
      (target ≤ (read.map size).sum →
        (read.map size).sum / modulus = target / modulus)) ∧
    (¬ PassesBreaks size breaks modulus target 0 read →
      (read.map size).sum < target)

variable (modulus target start : ℕ)

theorem passesBreaks_nil : PassesBreaks size breaks modulus target start [] := by
  intro before item hprefix
  exact absurd (List.prefix_nil.mp hprefix) (by simp)

theorem passesBreaks_cons (item : ι) (items : List ι) :
    PassesBreaks size breaks modulus target start (item :: items) ↔
      (breaks item → target % modulus < (start + size item) % modulus) ∧
        PassesBreaks size breaks modulus target
          ((start + size item) % modulus) items := by
  have hsum (rest : List ι) :
      (start + ((item :: rest).map size).sum) % modulus =
        ((start + size item) % modulus + (rest.map size).sum) % modulus := by
    rw [List.map_cons, List.sum_cons, ← Nat.add_assoc, Nat.mod_add_mod]
  constructor
  · intro hpasses
    constructor
    · intro hbreaks
      simpa using hpasses [] item (by simp) hbreaks
    · intro before next hprefix hbreaks
      rw [← hsum]
      apply hpasses (item :: before) next _ hbreaks
      exact (List.prefix_cons_inj item).mpr hprefix
  · rintro ⟨hfirst, hrest⟩ before next hprefix hbreaks
    cases before with
    | nil =>
        have hsame : next = item := by
          simpa using hprefix
        rw [hsame] at hbreaks ⊢
        simpa using hfirst hbreaks
    | cons first before =>
        obtain ⟨hsame, htail⟩ := List.cons_prefix_cons.mp hprefix
        rw [List.cons_append, hsame, hsum]
        exact hrest before next htail hbreaks

variable [DecidablePred breaks]

@[simp] theorem wrapping_count_bot (items : List ι) :
    (wrapping size breaks modulus target).count ⊥ items = ⊥ := by
  induction items with
  | nil => rfl
  | cons item items ih =>
      rw [count_cons]
      exact ih

theorem wrapping_add_of_passes
    {item : ι}
    (hpasses : breaks item → target % modulus < (start + size item) % modulus) :
    (wrapping size breaks modulus target).add (WithBot.some start) item =
      WithBot.some ((start + size item) % modulus) := by
  have hgoes :
      ¬ (breaks item ∧ (start + size item) % modulus ≤ target % modulus) :=
    fun hbroken => (hpasses hbroken.1).not_ge hbroken.2
  exact if_neg hgoes

theorem wrapping_add_of_broken
    {item : ι}
    (hbroken :
      ¬ (breaks item → target % modulus < (start + size item) % modulus)) :
    (wrapping size breaks modulus target).add (WithBot.some start) item =
      ⊥ := by
  rw [Classical.not_imp, not_lt] at hbroken
  exact if_pos hbroken

variable {modulus start}

theorem wrapping_count_of_passes
    (hstart : start < modulus) {items : List ι}
    (hpasses : PassesBreaks size breaks modulus target start items) :
    (wrapping size breaks modulus target).count (WithBot.some start) items =
      WithBot.some ((start + (items.map size).sum) % modulus) := by
  induction items generalizing start with
  | nil => simp [Nat.mod_eq_of_lt hstart]
  | cons item items ih =>
      have hnext : (start + size item) % modulus < modulus :=
        Nat.mod_lt _ (Nat.zero_lt_of_lt hstart)
      rw [passesBreaks_cons] at hpasses
      rw [count_cons, wrapping_add_of_passes size breaks _ _ _ hpasses.1,
        ih hnext hpasses.2, Nat.mod_add_mod, List.map_cons, List.sum_cons,
        Nat.add_assoc]

theorem wrapping_count_of_broken
    (hstart : start < modulus) {items : List ι}
    (hbroken : ¬ PassesBreaks size breaks modulus target start items) :
    (wrapping size breaks modulus target).count (WithBot.some start) items =
      ⊥ := by
  induction items generalizing start with
  | nil => exact absurd (passesBreaks_nil size breaks _ _ _) hbroken
  | cons item items ih =>
      have hnext : (start + size item) % modulus < modulus :=
        Nat.mod_lt _ (Nat.zero_lt_of_lt hstart)
      rw [passesBreaks_cons] at hbroken
      rw [count_cons]
      by_cases hfirst :
          breaks item → target % modulus < (start + size item) % modulus
      · rw [wrapping_add_of_passes size breaks _ _ _ hfirst]
        exact ih hnext fun hrest => hbroken ⟨hfirst, hrest⟩
      · rw [wrapping_add_of_broken size breaks _ _ _ hfirst]
        exact wrapping_count_bot size breaks modulus target items

end Wrapping

section WrappingAgreement

variable {size : ι → ℕ} {breaks : ι → Prop}

theorem sum_lt_of_below
    {bound target : ℕ} {items : List ι} (hbound : 0 < bound)
    (hitems : ∀ item ∈ items, size item < bound)
    (hbelow : (exact size target).Below 0 items) :
    (items.map size).sum < target + bound := by
  cases items using List.reverseRecOn with
  | nil => simp [hbound]
  | append_singleton items item =>
      have hbefore := hbelow items.length (by simp)
      rw [List.take_left, exact_count, Nat.zero_add] at hbefore
      have hitem := hitems item (by simp)
      have htarget : (exact size target).target = target := rfl
      rw [List.map_append, List.sum_append, List.map_singleton,
        List.sum_singleton]
      omega

theorem compare_coe (left right : ℕ) :
    compare (WithBot.some left) (WithBot.some right) = compare left right := by
  rcases lt_trichotomy left right with hlt | heq | hgt
  · rw [compare_lt_iff_lt.mpr hlt, compare_lt_iff_lt]
    exact WithBot.coe_lt_coe.mpr hlt
  · rw [heq, compare_eq_iff_eq.mpr rfl, compare_eq_iff_eq.mpr rfl]
  · rw [compare_gt_iff_gt.mpr hgt, compare_gt_iff_gt]
    exact WithBot.coe_lt_coe.mpr hgt

theorem compare_bot_coe (target : ℕ) :
    compare ⊥ (WithBot.some target) = .lt :=
  compare_lt_iff_lt.mpr (WithBot.bot_lt_coe target)

theorem wrapping_agree_iff [DecidablePred breaks]
    {modulus target : ℕ} {items : List ι} (hmodulus : 0 < modulus)
    (hitems : ∀ item ∈ items, size item < modulus) :
    Agree (wrapping size breaks modulus target) (exact size target)
        (WithBot.some 0) 0 items ↔
      WrapsAlike size breaks modulus target items := by
  rw [agree_iff]
  apply forall₃_congr
  intro read hread hbelow
  have hsum : (read.map size).sum < target + modulus :=
    sum_lt_of_below hmodulus
      (fun item hitem => hitems item (hread.subset hitem)) hbelow
  have htarget :
      (wrapping size breaks modulus target).target =
        WithBot.some (target % modulus) :=
    rfl
  have hexact : (exact size target).target = target := rfl
  rw [exact_count, Nat.zero_add, htarget, hexact]
  by_cases hpasses : PassesBreaks size breaks modulus target 0 read
  · rw [wrapping_count_of_passes size breaks target hmodulus hpasses,
      Nat.zero_add, compare_coe, compare_mod_eq_iff hsum]
    simp [hpasses]
  · rw [wrapping_count_of_broken size breaks target hmodulus hpasses,
      compare_bot_coe, eq_comm, compare_lt_iff_lt]
    simp [hpasses]

/-- A target below the modulus is only missed by a sum that wraps around and
by items that break the loop. -/
theorem wrapsAlike_iff_of_lt
    {modulus target : ℕ} {items : List ι} (htarget : target < modulus) :
    WrapsAlike size breaks modulus target items ↔
      ∀ read, read <+: items → (exact size target).Below 0 read →
        (PassesBreaks size breaks modulus target 0 read →
          (read.map size).sum < modulus) ∧
        (¬ PassesBreaks size breaks modulus target 0 read →
          (read.map size).sum < target) := by
  apply forall₃_congr
  intro read hread hbelow
  apply and_congr_left'
  apply imp_congr_right
  intro _
  rw [Nat.mod_eq_of_lt htarget, Nat.div_eq_of_lt htarget]
  constructor
  · intro halike
    rcases lt_or_ge (read.map size).sum target with hlt | hge
    · exact hlt.trans htarget
    · exact (Nat.div_eq_zero_iff_lt (Nat.zero_lt_of_lt htarget)).mp
        (halike.2 hge)
  · intro hsum
    rw [Nat.mod_eq_of_lt hsum, Nat.div_eq_of_lt hsum]
    exact ⟨id, fun _ => rfl⟩

/-- With room for one more item only the items that break the loop matter. -/
theorem wrapsAlike_iff_of_le
    {modulus target bound : ℕ} {items : List ι} (hbound : 0 < bound)
    (hitems : ∀ item ∈ items, size item < bound)
    (htarget : target + bound ≤ modulus) :
    WrapsAlike size breaks modulus target items ↔
      ∀ read, read <+: items → (exact size target).Below 0 read →
        target ≤ (read.map size).sum →
          PassesBreaks size breaks modulus target 0 read := by
  rw [wrapsAlike_iff_of_lt (by omega)]
  apply forall₃_congr
  intro read hread hbelow
  have hsum : (read.map size).sum < target + bound :=
    sum_lt_of_below hbound
      (fun item hitem => hitems item (hread.subset hitem)) hbelow
  constructor
  · intro halike hreached
    by_contra hbroken
    exact hreached.not_gt (halike.2 hbroken)
  · intro hpasses
    refine ⟨fun _ => hsum.trans_le htarget, ?_⟩
    intro hbroken
    exact not_le.mp fun hreached => hbroken (hpasses hreached)

theorem passesBreaks_of_not_breaks
    {modulus target start : ℕ} {items : List ι}
    (hbreaks : ∀ item ∈ items, ¬ breaks item) :
    PassesBreaks size breaks modulus target start items := by
  intro before item hprefix hbroken
  have hmem : item ∈ items := hprefix.subset (by simp)
  exact absurd hbroken (hbreaks item hmem)

/-- A positive multiple of the modulus is taken for zero. -/
theorem not_wrapsAlike_of_dvd
    {modulus target : ℕ} (items : List ι) (hpos : 0 < target)
    (hdvd : modulus ∣ target) :
    ¬ WrapsAlike size breaks modulus target items := by
  intro halike
  obtain ⟨hopen, -⟩ :=
    (halike [] List.nil_prefix ((exact size target).below_nil 0)).1
      (passesBreaks_nil size breaks modulus target 0)
  rw [Nat.mod_eq_zero_of_dvd hdvd] at hopen
  exact absurd (hopen hpos) (Nat.not_lt_zero _)

end WrappingAgreement

end Counter

end Counting
