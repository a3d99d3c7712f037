import Mathlib.Data.List.Basic

/-!
# Machinery/Session — interactive programs, and everything they can do

A `Session` asks queries, is answered, and ends with a value or halts.  `Runs` is its behaviour
against an outside that may answer anything: a list of exchanges and the way the session ended.
A statement about every run of a session is therefore a statement about every outside, however it
chooses its answers.

A property seldom cares about all exchanges.  `Session.Shows obs` keeps those an observer `obs`
sees, and composes: what the observer does not see (`Session.Quiet`; `Session.Silent` when it cannot
halt either) drops out, and a loop shows the concatenation of its rounds (`Shows.attempts`).
-/

namespace Machinery

/-- A query, with its answer. -/
structure Exchange {Q : Type} (A : Q → Type) where
  query : Q
  answer : A query

/-- A program that asks queries `Q`, answered in `A`, and returns an `α` or halts with an `H`. -/
inductive Session {Q : Type} (A : Q → Type) (H α : Type) : Type
  | done (a : α)
  | halt (h : H)
  | ask (q : Q) (k : A q → Session A H α)

namespace Session

variable {Q : Type} {A : Q → Type} {H α β : Type}

def bind (p : Session A H α) (f : α → Session A H β) : Session A H β :=
  match p with
  | done a => f a
  | halt h => halt h
  | ask q k => ask q fun x => (k x).bind f

instance : Monad (Session A H) where
  pure := done
  bind := bind

/-- Ask one query, and return its answer. -/
def query (q : Q) : Session A H (A q) := ask q done

@[simp] theorem pure_eq (a : α) : (pure a : Session A H α) = done a := rfl

@[simp] theorem done_bind (a : α) (f : α → Session A H β) : (done a >>= f) = f a := rfl

@[simp] theorem halt_bind (h : H) (f : α → Session A H β) : (halt h >>= f) = halt h := rfl

@[simp] theorem ask_bind (q : Q) (k : A q → Session A H α) (f : α → Session A H β) :
    (ask q k >>= f) = ask q fun x => k x >>= f := rfl

/-! ## Runs -/

/-- **The runs of a session**: what was exchanged, and how it ended. -/
inductive Runs : Session A H α → List (Exchange A) → Except H α → Prop
  | done (a : α) : Runs (.done a) [] (.ok a)
  | halt (h : H) : Runs (.halt h) [] (.error h)
  | ask {q : Q} {k : A q → Session A H α} (x : A q) {t : List (Exchange A)} {r : Except H α}
      (h : Runs (k x) t r) : Runs (.ask q k) (⟨q, x⟩ :: t) r

/-- The run against an outside that answers by what was exchanged so far. -/
def play (outside : List (Exchange A) → (q : Q) → A q) (past : List (Exchange A)) :
    Session A H α → List (Exchange A) × Except H α
  | done a => ([], .ok a)
  | halt h => ([], .error h)
  | ask q k =>
    let x := outside past q
    let (t, r) := play outside (past ++ [⟨q, x⟩]) (k x)
    (⟨q, x⟩ :: t, r)

/-- **Every outside is met by a run.** -/
theorem play_runs (outside : List (Exchange A) → (q : Q) → A q) (p : Session A H α) :
    ∀ past, Runs p (play outside past p).1 (play outside past p).2 := by
  induction p with
  | done a => exact fun _ => .done a
  | halt h => exact fun _ => .halt h
  | ask q k ih => exact fun past => .ask _ (ih _ _)

section

variable {p : Session A H α} {f : α → Session A H β} {t : List (Exchange A)}

theorem runs_done_iff {a : α} {r : Except H α} :
    Runs (done a : Session A H α) t r ↔ t = [] ∧ r = .ok a := by
  refine ⟨fun h => ?_, ?_⟩
  · cases h
    exact ⟨rfl, rfl⟩
  · rintro ⟨rfl, rfl⟩
    exact .done a

theorem runs_halt_iff {h : H} {r : Except H α} :
    Runs (halt h : Session A H α) t r ↔ t = [] ∧ r = .error h := by
  refine ⟨fun hr => ?_, ?_⟩
  · cases hr
    exact ⟨rfl, rfl⟩
  · rintro ⟨rfl, rfl⟩
    exact .halt h

theorem runs_ask_iff {q : Q} {k : A q → Session A H α} {r : Except H α} :
    Runs (ask q k) t r ↔ ∃ x t', t = ⟨q, x⟩ :: t' ∧ Runs (k x) t' r := by
  refine ⟨fun h => ?_, ?_⟩
  · cases h with
    | ask x h => exact ⟨x, _, rfl, h⟩
  · rintro ⟨x, t', rfl, h⟩
    exact .ask x h

/-- **A run of a sequence** is a run of the first part that halts, or one of each part. -/
theorem runs_bind_iff {r : Except H β} : Runs (p >>= f) t r ↔
    (∃ h, Runs p t (.error h) ∧ r = .error h) ∨
      ∃ a t₁ t₂, t = t₁ ++ t₂ ∧ Runs p t₁ (.ok a) ∧ Runs (f a) t₂ r := by
  induction p generalizing t with
  | done a => simp [runs_done_iff]
  | halt h => simp [runs_halt_iff]
  | ask q k ih =>
    simp only [ask_bind, runs_ask_iff, ih]
    constructor
    · rintro ⟨x, t', rfl, ⟨h, hrun, rfl⟩ | ⟨a, t₁, t₂, rfl, h₁, h₂⟩⟩
      · exact .inl ⟨h, ⟨x, t', rfl, hrun⟩, rfl⟩
      · exact .inr ⟨a, _, t₂, rfl, ⟨x, t₁, rfl, h₁⟩, h₂⟩
    · rintro (⟨h, ⟨x, t', rfl, hrun⟩, rfl⟩ | ⟨a, _, t₂, rfl, ⟨x, t₁, rfl, h₁⟩, h₂⟩)
      · exact ⟨x, t', rfl, .inl ⟨h, hrun, rfl⟩⟩
      · exact ⟨x, t₁ ++ t₂, rfl, .inr ⟨a, t₁, t₂, rfl, h₁, h₂⟩⟩

end

/-! ## What an observer sees -/

section

variable {O : Type} (obs : Exchange A → Option O)

/-- **Every run shows the observer what `S` allows.** -/
def Shows (p : Session A H α) (S : List O → Except H α → Prop) : Prop :=
  ∀ t r, Runs p t r → S (t.filterMap obs) r

/-- A session of which the observer sees nothing; `R` is what is known of its value. -/
def Quiet (p : Session A H α) (R : α → Prop) : Prop :=
  p.Shows obs fun s r => s = [] ∧ ∀ a, r = .ok a → R a

/-- A quiet session that never halts. -/
def Silent (p : Session A H α) (R : α → Prop) : Prop :=
  p.Shows obs fun s r => s = [] ∧ ∃ a, r = .ok a ∧ R a

variable {obs} {p : Session A H α} {f : α → Session A H β}

theorem Shows.mono {S S' : List O → Except H α → Prop} (h : p.Shows obs S)
    (hS : ∀ s r, S s r → S' s r) : p.Shows obs S' := fun t r hrun => hS _ _ (h t r hrun)

theorem Shows.done {a : α} {S : List O → Except H α → Prop} (h : S [] (.ok a)) :
    (done a : Session A H α).Shows obs S := by
  intro t r hrun
  obtain ⟨rfl, rfl⟩ := runs_done_iff.mp hrun
  exact h

theorem Shows.halt {h : H} {S : List O → Except H α → Prop} (hS : S [] (.error h)) :
    (halt h : Session A H α).Shows obs S := by
  intro t r hrun
  obtain ⟨rfl, rfl⟩ := runs_halt_iff.mp hrun
  exact hS

/-- A query that is seen comes before what is shown after it. -/
theorem Shows.ask {q : Q} {k : A q → Session A H α} {S : List O → Except H α → Prop}
    (h : ∀ x, (k x).Shows obs fun s r => S ((obs ⟨q, x⟩).toList ++ s) r) :
    (ask q k).Shows obs S := by
  intro t r hrun
  obtain ⟨x, t', rfl, hrun'⟩ := runs_ask_iff.mp hrun
  have := h x t' r hrun'
  cases hobs : obs ⟨q, x⟩ <;> simpa [hobs] using this

/-- **Sequencing**: what the first part shows comes before what the rest shows. -/
theorem Shows.bind {S : List O → Except H β → Prop}
    (h : p.Shows obs fun s r =>
      match r with
      | .ok a => (f a).Shows obs fun s' r' => S (s ++ s') r'
      | .error stop => S s (.error stop)) : (p >>= f).Shows obs S := by
  intro t r hrun
  rcases runs_bind_iff.mp hrun with ⟨stop, hp, rfl⟩ | ⟨a, t₁, t₂, rfl, hp, hf⟩
  · exact h t _ hp
  · rw [List.filterMap_append]
    exact h t₁ _ hp t₂ r hf

/-- **A quiet part drops out**: whatever it leaves the rest with shows what is allowed, and a halt
shows nothing. -/
theorem Quiet.bind {R : α → Prop} {S : List O → Except H β → Prop} (h : p.Quiet obs R)
    (hhalt : ∀ stop, S [] (.error stop)) (hf : ∀ a, R a → (f a).Shows obs S) :
    (p >>= f).Shows obs S := by
  refine Shows.bind (h.mono ?_)
  rintro s r ⟨rfl, hr⟩
  cases r with
  | ok a => exact (hf a (hr a rfl)).mono fun s' r' h => by simpa using h
  | error stop => exact hhalt stop

/-- Two quiet parts in sequence are quiet. -/
theorem Quiet.seq {R : α → Prop} {R' : β → Prop} (h : p.Quiet obs R)
    (hf : ∀ a, R a → (f a).Quiet obs R') : (p >>= f).Quiet obs R' :=
  h.bind (fun _ => ⟨rfl, fun _ h => by simp at h⟩) hf

theorem Quiet.done {a : α} {R : α → Prop} (h : R a) : (done a : Session A H α).Quiet obs R :=
  Shows.done ⟨rfl, fun b hb => by cases hb; exact h⟩

theorem Quiet.halt {h : H} {R : α → Prop} : (halt h : Session A H α).Quiet obs R :=
  Shows.halt ⟨rfl, fun _ hb => by simp at hb⟩

theorem Quiet.ask {q : Q} {k : A q → Session A H α} {R : α → Prop}
    (hq : ∀ x, obs ⟨q, x⟩ = none) (h : ∀ x, (k x).Quiet obs R) : (Session.ask q k).Quiet obs R :=
  Shows.ask fun x => (h x).mono fun s r hs => by simpa [hq x] using hs

theorem Quiet.mono {R R' : α → Prop} (h : p.Quiet obs R) (hR : ∀ a, R a → R' a) :
    p.Quiet obs R' :=
  Shows.mono h fun _ _ ⟨hs, hr⟩ => ⟨hs, fun a ha => hR a (hr a ha)⟩

theorem Silent.quiet {R : α → Prop} (h : p.Silent obs R) : p.Quiet obs R := by
  refine Shows.mono h ?_
  rintro s r ⟨hs, a, rfl, ha⟩
  refine ⟨hs, fun b hb => ?_⟩
  cases hb
  exact ha

/-- **A silent part drops out**, whatever the sequence shows. -/
theorem Silent.bind {R : α → Prop} {S : List O → Except H β → Prop} (h : p.Silent obs R)
    (hf : ∀ a, R a → (f a).Shows obs S) : (p >>= f).Shows obs S := by
  refine Shows.bind (Shows.mono h ?_)
  rintro s r ⟨rfl, a, rfl, ha⟩
  exact (hf a ha).mono fun s' r' h => by simpa using h

theorem Silent.done {a : α} {R : α → Prop} (h : R a) : (done a : Session A H α).Silent obs R :=
  Shows.done ⟨rfl, a, rfl, h⟩

theorem Silent.ask {q : Q} {k : A q → Session A H α} {R : α → Prop}
    (hq : ∀ x, obs ⟨q, x⟩ = none) (h : ∀ x, (k x).Silent obs R) : (Session.ask q k).Silent obs R :=
  Shows.ask fun x => (h x).mono fun s r hs => by simpa [hq x] using hs

/-- **An observer who looks at less** sees what is left of what the other was shown. -/
theorem Shows.coarsen {O' : Type} {obs' : Exchange A → Option O'} {S : List O → Except H α → Prop}
    (h : p.Shows obs S) (g : O → Option O') (hg : ∀ e, obs' e = (obs e).bind g) :
    p.Shows obs' fun s r => ∃ s', S s' r ∧ s = s'.filterMap g := by
  intro t r hrun
  refine ⟨t.filterMap obs, h t r hrun, ?_⟩
  rw [List.filterMap_filterMap]
  exact List.filterMap_congr fun e _ => hg e

/-- What one observer does not see, one who looks at less does not see either. -/
theorem Quiet.coarsen {O' : Type} {obs' : Exchange A → Option O'} {R : α → Prop}
    (h : p.Quiet obs R) (g : O → Option O') (hg : ∀ e, obs' e = (obs e).bind g) :
    p.Quiet obs' R := by
  refine (Shows.coarsen h g hg).mono ?_
  rintro s r ⟨s', ⟨rfl, hr⟩, rfl⟩
  exact ⟨rfl, hr⟩

/-- A quiet session for each item of a list. -/
theorem Quiet.forM {ι : Type} {g : ι → Session A H Unit} {l : List ι}
    (h : ∀ i ∈ l, (g i).Quiet obs fun _ => True) : (l.forM g).Quiet obs fun _ => True := by
  induction l with
  | nil => exact Quiet.done trivial
  | cons i l ih =>
    exact (h i List.mem_cons_self).seq fun _ _ =>
      ih fun j hj => h j (List.mem_cons_of_mem _ hj)

end

/-! ## Bounded repetition -/

/-- At most `n` rounds, up to the first that yields a value. -/
def attempts : ℕ → Session A H (Option β) → Session A H (Option β)
  | 0, _ => pure none
  | n + 1, round => do
    match ← round with
    | some b => pure (some b)
    | none => attempts n round

/-- **What a bounded repetition shows**: the rounds that yielded nothing, one after the other, and
then either there are no rounds left, or the round that ended it. -/
theorem Shows.attempts {O : Type} {obs : Exchange A → Option O} {round : Session A H (Option β)}
    {S : List O → Except H (Option β) → Prop} (h : round.Shows obs S) :
    ∀ n, (attempts n round).Shows obs fun s r => ∃ idle : List (List O),
      (∀ u ∈ idle, S u (.ok none)) ∧
        (idle.length = n ∧ s = idle.flatten ∧ r = .ok none ∨
          idle.length < n ∧ ∃ u, S u r ∧ r ≠ .ok none ∧ s = idle.flatten ++ u) := by
  intro n
  induction n with
  | zero => exact Shows.done ⟨[], by simp, .inl ⟨rfl, rfl, rfl⟩⟩
  | succ n ih =>
    refine Shows.bind (h.mono fun u r hu => ?_)
    cases r with
    | error stop => exact ⟨[], by simp, .inr ⟨Nat.succ_pos n, u, hu, by simp, rfl⟩⟩
    | ok x =>
      cases x with
      | some b =>
        refine Shows.done ⟨[], by simp, .inr ⟨Nat.succ_pos n, u, hu, by simp, by simp⟩⟩
      | none =>
        refine ih.mono ?_
        rintro s r ⟨idle, hidle, hend⟩
        refine ⟨u :: idle, by simpa using ⟨hu, hidle⟩, ?_⟩
        rcases hend with ⟨hlen, rfl, rfl⟩ | ⟨hlen, v, hv, hr, rfl⟩
        · exact .inl ⟨by simp [hlen], by simp, rfl⟩
        · exact .inr ⟨by simpa using hlen, v, hv, hr, by simp⟩

end Session

end Machinery
