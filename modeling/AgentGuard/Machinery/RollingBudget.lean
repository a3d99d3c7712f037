import AgentGuard.Machinery.Meter

/-!
# Machinery/RollingBudget — what a meter knows of the history it was charged with

A history is a list of admissions, newest first.  A meter that is charged with it forgets: at every
admission it drops what lies behind that admission's horizon, and some admissions are never counted
at all.  `remembered` is the part of the history a meter can still speak for, and `Knows` says that
it does.  When every admission counts and the horizon is a fixed width behind the clock, the part it
speaks for is the whole window, and a cap on the total is a ceiling on every window of that width
(`Capped`).
-/

namespace Machinery

variable {T V : IntRange} {α : Type*}

/-- How a meter reads an admission: when it happened, what it costs, whether it is counted, and up
to which instant the meter forgets on the way. -/
structure Metering (α : Type*) where
  time : α → ℤ
  amount : α → ℤ
  counted : α → Bool
  horizon : α → ℤ

namespace Metering

variable (m : Metering α)

/-- What was spent after `x`. -/
def spentAfter (x : ℤ) (cs : List α) : ℤ := ((cs.filter fun c => x < m.time c).map m.amount).sum

/-- What was spent in the window `(x, t]`. -/
def spentIn (x t : ℤ) (cs : List α) : ℤ :=
  ((cs.filter fun c => x < m.time c ∧ m.time c ≤ t).map m.amount).sum

/-- **The part of the history a meter can still speak for**: an admission that was counted, and has
been behind the horizon of none since. -/
def remembered : List α → List α
  | [] => []
  | c :: cs =>
    (if m.counted c then [c] else []) ++ (remembered cs).filter fun d => m.horizon c < m.time d

theorem spentAfter_cons (x : ℤ) (c : α) (cs : List α) :
    m.spentAfter x (c :: cs) = (if x < m.time c then m.amount c else 0) + m.spentAfter x cs := by
  by_cases h : x < m.time c <;> simp [spentAfter, h]

theorem spentIn_cons (x t : ℤ) (c : α) (cs : List α) :
    m.spentIn x t (c :: cs)
      = (if x < m.time c ∧ m.time c ≤ t then m.amount c else 0) + m.spentIn x t cs := by
  by_cases h : x < m.time c ∧ m.time c ≤ t <;> simp [spentIn, h]

theorem mem_of_mem_remembered {cs : List α} {d : α} (h : d ∈ m.remembered cs) : d ∈ cs := by
  induction cs with
  | nil => exact h
  | cons c cs ih =>
    rw [remembered] at h
    rcases List.mem_append.mp h with h | h
    · split_ifs at h with hc
      · exact List.mem_cons.mpr (.inl (List.mem_singleton.mp h))
      · simp at h
    · exact List.mem_cons_of_mem _ (ih (List.mem_of_mem_filter h))

/-- Everything up to now lies in a window that reaches now. -/
theorem spentIn_eq_spentAfter {cs : List α} {x t : ℤ} (h : ∀ c ∈ cs, m.time c ≤ t) :
    m.spentIn x t cs = m.spentAfter x cs := by
  rw [spentIn, spentAfter]
  refine congrArg (fun l => (l.map m.amount).sum) (List.filter_congr fun c hc => ?_)
  simp [h c hc]

/-- **One admission**: what lies behind its horizon is gone, and the admission itself is there if it
was counted. -/
theorem spentAfter_remembered_cons (x : ℤ) (c : α) (cs : List α) :
    m.spentAfter x (m.remembered (c :: cs))
      = m.spentAfter (max (m.horizon c) x) (m.remembered cs)
        + (if m.counted c ∧ x < m.time c then m.amount c else 0) := by
  have hkept : (m.remembered cs).filter (fun d => m.horizon c < m.time d ∧ x < m.time d)
      = (m.remembered cs).filter fun d => max (m.horizon c) x < m.time d :=
    List.filter_congr fun d _ => decide_eq_decide.mpr max_lt_iff.symm
  have htail : m.spentAfter x ((m.remembered cs).filter fun d => m.horizon c < m.time d)
      = m.spentAfter (max (m.horizon c) x) (m.remembered cs) := by
    rw [spentAfter, spentAfter, List.filter_filter, ← hkept]
    refine congrArg (fun l => (l.map m.amount).sum) (List.filter_congr fun d _ => ?_)
    simp [Bool.and_comm]
  by_cases hc : m.counted c = true
  · simp only [remembered, hc, if_true, List.singleton_append, spentAfter_cons, htail, true_and]
    omega
  · simp [remembered, hc, htail]

/-- **A history that was always counted, with nothing in sight behind a horizon, is remembered.** -/
theorem spentAfter_remembered {cs : List α} {x : ℤ}
    (hcounted : ∀ c ∈ cs, m.counted c = true) (hhorizon : ∀ c ∈ cs, m.horizon c ≤ x) :
    m.spentAfter x (m.remembered cs) = m.spentAfter x cs := by
  induction cs with
  | nil => rfl
  | cons c cs ih =>
    have := ih (fun d hd => hcounted d (List.mem_cons_of_mem _ hd))
      (fun d hd => hhorizon d (List.mem_cons_of_mem _ hd))
    rw [spentAfter_remembered_cons, max_eq_right (hhorizon c List.mem_cons_self), this,
      spentAfter_cons]
    simp only [hcounted c List.mem_cons_self, true_and]
    omega

/-- **A larger window holds more.** -/
theorem spentAfter_anti {cs : List α} (h : ∀ c ∈ cs, 0 ≤ m.amount c) {x y : ℤ} (hxy : x ≤ y) :
    m.spentAfter y cs ≤ m.spentAfter x cs := by
  induction cs with
  | nil => exact le_rfl
  | cons c cs ih =>
    have hc := h c List.mem_cons_self
    have := ih fun d hd => h d (List.mem_cons_of_mem _ hd)
    rw [spentAfter_cons, spentAfter_cons]
    split_ifs <;> omega

/-! ## What the meter knows -/

/-- **The meter speaks for all it remembers.** -/
def Knows (cs : List α) (l : Rolling T V) : Prop :=
  ∀ x, m.spentAfter x (m.remembered cs) ≤ sumAfter x l.entries

theorem knows_nil (l : Rolling T V) (h : ∀ e ∈ l.entries, 0 < e.value.val) : m.Knows [] l :=
  fun x => sumAfter_nonneg h x

variable {m} {bound : ℕ} {now : BoundedInt T} {l : Rolling T V} {c : α} {cs : List α}

/-- What an admission costs the meter. -/
def cost (m : Metering α) (c : α) : ℤ := if m.counted c then m.amount c else 0

/-- **Knowledge survives an admission.** -/
theorem Knows.charge (hb : 0 < bound) (hlo : V.lo ≤ 0) (h : m.Knows cs l)
    (hs : l.Sound bound now.val) (ht : m.time c = now.val) (ha : 0 ≤ m.cost c)
    (hfit : (l.keepAfter (m.horizon c)).total.val + m.cost c ≤ V.hi) :
    m.Knows (c :: cs) ((l.keepAfter (m.horizon c)).charge bound now (m.cost c)) := by
  intro x
  have hstep := (hs.keepAfter hlo (m.horizon c)).le_sumAfter_charge hb hlo ha hfit x
  have hold := h (max (m.horizon c) x)
  rw [sumAfter_keepAfter] at hstep
  rw [spentAfter_remembered_cons, ht]
  refine le_trans ?_ hstep
  unfold cost
  split_ifs <;> first | omega | simp_all

/-- An admission that costs nothing and leaves the meter alone. -/
theorem Knows.idle {now : ℤ} (h : m.Knows cs l) (hs : l.Sound bound now) (hc : m.cost c = 0) :
    m.Knows (c :: cs) l := by
  intro x
  have hzero : (if m.counted c ∧ x < m.time c then m.amount c else 0) = 0 := by
    unfold cost at hc
    split_ifs at hc ⊢ <;> simp_all
  rw [spentAfter_remembered_cons, hzero, add_zero]
  exact (h _).trans (sumAfter_anti hs.ordered.positive (le_max_right _ _))

/-- **What is remembered is within the total.** -/
theorem Knows.le_total {now : ℤ} (h : m.Knows cs l) (hs : l.Sound bound now) (x : ℤ) :
    m.spentAfter x (m.remembered cs) ≤ l.total.val :=
  (h x).trans ((sumAfter_le_valueSum hs.ordered.positive x).trans hs.exact.ge)

/-! ## A fixed cap over a fixed width -/

/-- **A meter under a fixed cap and width**, charged with every admission of the history. -/
structure Capped (m : Metering α) (bound : ℕ) (cap width now : ℤ) (cs : List α)
    (l : Rolling T V) : Prop where
  sound : l.Sound bound now
  knows : m.Knows cs l
  past : ∀ c ∈ cs, m.time c ≤ now
  counted : ∀ c ∈ cs, m.counted c = true
  horizon : ∀ c ∈ cs, m.horizon c = m.time c - width
  amount : ∀ c ∈ cs, 0 ≤ m.amount c
  /-- The ceiling, over every window of the width. -/
  ceiling : ∀ t, m.spentIn (t - width) t cs ≤ cap

theorem Capped.nil {cap width now : ℤ} (hcap : 0 ≤ cap) (hs : l.Sound bound now) :
    m.Capped bound cap width now [] l where
  sound := hs
  knows := m.knows_nil l hs.ordered.positive
  past := by simp
  counted := by simp
  horizon := by simp
  amount := by simp
  ceiling := fun _ => hcap

theorem Capped.mono {cap width now now' : ℤ} (h : m.Capped bound cap width now cs l)
    (hn : now ≤ now') : m.Capped bound cap width now' cs l :=
  { h with sound := h.sound.mono hn, past := fun c hc => (h.past c hc).trans hn }

/-- **All that a window can hold when it ends now or later** is in the meter, once the meter has
forgotten what is a width behind. -/
theorem Capped.spentIn_le {cap width now t : ℤ} (hlo : V.lo ≤ 0)
    (h : m.Capped bound cap width now cs l) (ht : now ≤ t) :
    m.spentIn (t - width) t cs ≤ (l.keepAfter (now - width)).total.val := by
  have hremembered : m.spentAfter (now - width) (m.remembered cs)
      = m.spentAfter (now - width) cs :=
    m.spentAfter_remembered h.counted fun d hd => by
      have := h.past d hd
      rw [h.horizon d hd]
      omega
  calc m.spentIn (t - width) t cs
      = m.spentAfter (t - width) cs := m.spentIn_eq_spentAfter fun d hd => (h.past d hd).trans ht
    _ ≤ m.spentAfter (now - width) cs := m.spentAfter_anti h.amount (by omega)
    _ ≤ sumAfter (now - width) l.entries := hremembered ▸ h.knows _
    _ = (l.keepAfter (now - width)).total.val :=
        (h.sound.keepAfter hlo (now - width)).exact.symm

/-- One more admission: the ceiling is at stake in the windows that contain it. -/
theorem Capped.cons {cap width now : ℤ} {l' : Rolling T V}
    (h : m.Capped bound cap width now cs l) (ht : m.time c = now) (hc : m.counted c = true)
    (hh : m.horizon c = now - width) (ha : 0 ≤ m.amount c) (hs : l'.Sound bound now)
    (hknows : m.Knows (c :: cs) l')
    (hceiling : ∀ t, now ≤ t → m.amount c + m.spentIn (t - width) t cs ≤ cap) :
    m.Capped bound cap width now (c :: cs) l' where
  sound := hs
  knows := hknows
  past d hd := (List.mem_cons.mp hd).elim (fun hd => hd ▸ ht.le) (h.past d)
  counted d hd := (List.mem_cons.mp hd).elim (fun hd => hd ▸ hc) (h.counted d)
  horizon d hd := (List.mem_cons.mp hd).elim (fun hd => by rw [hd, hh, ht]) (h.horizon d)
  amount d hd := (List.mem_cons.mp hd).elim (fun hd => hd ▸ ha) (h.amount d)
  ceiling t := by
    rw [spentIn_cons]
    by_cases hin : t - width < m.time c ∧ m.time c ≤ t
    · rw [if_pos hin]
      exact hceiling t (ht ▸ hin.2)
    · rw [if_neg hin, zero_add]
      exact h.ceiling t

/-- An admission of nothing. -/
theorem Capped.idle {cap width now : ℤ} (h : m.Capped bound cap width now cs l)
    (ht : m.time c = now) (hc : m.counted c = true) (hh : m.horizon c = now - width)
    (ha : m.amount c = 0) : m.Capped bound cap width now (c :: cs) l := by
  refine h.cons ht hc hh ha.ge h.sound (h.knows.idle h.sound ?_) fun t _ => ?_
  · rw [cost, ha, ite_self]
  · rw [ha, zero_add]
    exact h.ceiling t

/-- **An admission under the cap keeps the ceiling** — over windows that end before it nothing
changes, and all a later window can hold is in the meter, whose total passed the cap. -/
theorem Capped.charge {cap width : ℤ} (hb : 0 < bound) (hlo : V.lo ≤ 0) (hcap : cap ≤ V.hi)
    (h : m.Capped bound cap width now.val cs l) (ht : m.time c = now.val)
    (hc : m.counted c = true) (hh : m.horizon c = now.val - width) (ha : 0 ≤ m.amount c)
    (hfit : 0 < m.amount c → (l.keepAfter (now.val - width)).total.val + m.amount c ≤ cap) :
    m.Capped bound cap width now.val (c :: cs)
      ((l.keepAfter (now.val - width)).charge bound now (m.amount c)) := by
  have hroom := (l.keepAfter (now.val - width)).total.add_le_hi_of_room ha hfit hcap
  have hcost : m.cost c = m.amount c := if_pos hc
  have hknows := h.knows.charge hb hlo h.sound ht (by rw [hcost]; exact ha)
    (by rw [hcost, hh]; exact hroom)
  rw [hcost, hh] at hknows
  have hsound := (h.sound.keepAfter hlo (now.val - width)).charge hb hlo ha hroom
  refine h.cons ht hc hh ha hsound hknows fun t hnow => ?_
  rcases ha.eq_or_lt with hz | hpos
  · rw [← hz, zero_add]
    exact h.ceiling t
  · have hold := h.spentIn_le hlo hnow
    have hnew := hfit hpos
    omega

/-! ## A meter that never merged -/

/-- **The meter agrees with the history** on everything within a width of now. -/
def Agrees (m : Metering α) (width now : ℤ) (cs : List α) (l : Rolling T V) : Prop :=
  ∀ x, now - width ≤ x → m.spentAfter x cs = sumAfter x l.entries

theorem Agrees.mono {width now now' : ℤ} (h : m.Agrees width now cs l) (hn : now ≤ now') :
    m.Agrees width now' cs l := fun x hx => h x (by omega)

/-- An admission of nothing that leaves the meter alone. -/
theorem Agrees.idle {width now : ℤ} (h : m.Agrees width now cs l) (ha : m.amount c = 0) :
    m.Agrees width now (c :: cs) l := by
  intro x hx
  rw [spentAfter_cons, ha, ite_self, zero_add]
  exact h x hx

/-- **An admission without a merge** adds itself to what the meter knows, and what it forgets on the
way is out of sight. -/
theorem Agrees.charge {width : ℤ} (hb : 0 < bound) (hlo : V.lo ≤ 0)
    (h : m.Agrees width now.val cs l) (hs : l.Sound bound now.val) (ht : m.time c = now.val)
    (ha : 0 ≤ m.amount c)
    (hfit : (l.keepAfter (now.val - width)).total.val + m.amount c ≤ V.hi)
    (hroom : 0 < m.amount c → ¬Full bound now (l.keepAfter (now.val - width)).entries) :
    m.Agrees width now.val (c :: cs)
      ((l.keepAfter (now.val - width)).charge bound now (m.amount c)) := by
  intro x hx
  have hstep := (hs.keepAfter hlo (now.val - width)).sumAfter_charge hb hlo ha hfit hroom x
  rw [hstep, sumAfter_keepAfter, max_eq_right hx, spentAfter_cons, ht, h x hx, add_comm]

/-- **What the meter holds is what was spent in the window that ends now.** -/
theorem Agrees.total_keepAfter {width now : ℤ} (hlo : V.lo ≤ 0) (h : m.Agrees width now cs l)
    (hs : l.Sound bound now) (hpast : ∀ c ∈ cs, m.time c ≤ now) :
    (l.keepAfter (now - width)).total.val = m.spentIn (now - width) now cs := by
  rw [m.spentIn_eq_spentAfter hpast, h _ le_rfl]
  exact (hs.keepAfter hlo (now - width)).exact

end Metering

end Machinery
