import AgentGuard.Machinery.Recorder
import Mathlib.Algebra.Order.Group.Nat
import Mathlib.Logic.Function.Basic

/-!
# Machinery/Lease — storage whose entries lapse

Beside its value every entry has a last ledger (`Leases`).  Reading or writing an entry that lapsed
brings it back, and a program extends the life of what it touches (`extendTtl`); nothing else moves
a last ledger.  `Tended` is what a well-kept program does to the leases: none shrinks, what it
touches lives on for at least half of the longest time, and what it creates for all of it.  It
composes along `bind` (`Tends.bind`), beside the value the program returns and the storage it
leaves; and from one step to the next (`LivesOn.step`).
-/

namespace Machinery

/-- **What a host fixes about the life of its entries**, in ledgers. -/
structure LeaseTerms where
  maxTtl : ℕ
  /-- The last ledger of an entry that is created, or brought back after it lapsed. -/
  fresh : ℕ → ℕ
  /-- The last ledger after `extend_ttl(threshold, target)`. -/
  extend (last now threshold target : ℕ) : ℕ
  fresh_le (now : ℕ) : fresh now ≤ now + maxTtl
  le_fresh (now : ℕ) : now ≤ fresh now
  extend_due (last now threshold target : ℕ) (hle : threshold ≤ target)
    (h : last < now + threshold) : extend last now threshold target = now + target
  extend_cases (last now threshold target : ℕ) :
    extend last now threshold target = last ∨ extend last now threshold target = now + target

/-- The last ledger each entry is there. -/
abbrev Leases (κ : Type) := κ → ℕ

namespace LeaseTerms

variable (terms : LeaseTerms) {last now threshold target : ℕ}

/-- An entry that lapsed starts over. -/
def revived (last now : ℕ) : ℕ := if last < now then terms.fresh now else last

/-- No lease is longer than the longest. -/
def Within {κ : Type} (now : ℕ) (leases : Leases κ) : Prop := ∀ k, leases k ≤ now + terms.maxTtl

theorem le_revived : last ≤ terms.revived last now := by
  have := terms.le_fresh now
  rw [revived]
  split <;> omega

theorem revived_le (h : last ≤ now + terms.maxTtl) :
    terms.revived last now ≤ now + terms.maxTtl := by
  have := terms.fresh_le now
  rw [revived]
  split <;> omega

theorem threshold_le_extend (h : threshold ≤ target) :
    now + threshold ≤ terms.extend last now threshold target := by
  have hdue := terms.extend_due last now threshold target h
  rcases terms.extend_cases last now threshold target with heq | heq <;> omega

theorem le_extend (h : last ≤ now + target) : last ≤ terms.extend last now threshold target := by
  rcases terms.extend_cases last now threshold target with heq | heq <;> omega

theorem extend_le (h : last ≤ now + target) :
    terms.extend last now threshold target ≤ now + target := by
  rcases terms.extend_cases last now threshold target with heq | heq <;> omega

theorem Within.mono {κ : Type} {leases : Leases κ} {now' : ℕ} (h : terms.Within now leases)
    (hnow : now ≤ now') : terms.Within now' leases := fun k =>
  le_trans (h k) (Nat.add_le_add_right hnow _)

end LeaseTerms

/-- The programs over a storage with leases. -/
abbrev Leased (κ ε σ : Type) := Recorded κ ε (σ × Leases κ)

namespace Leased

variable {κ ε σ α : Type} [DecidableEq κ] (terms : LeaseTerms) (now : ℕ)

/-- Move an entry's last ledger. -/
def renew (key : κ) (next : ℕ → ℕ) : Leased κ ε σ Unit :=
  Recorded.store key fun x => (x.1, Function.update x.2 key (next (x.2 key)))

def extendTtl (key : κ) (threshold target : ℕ) : Leased κ ε σ Unit :=
  renew key fun last => terms.extend last now threshold target

/-- Look an entry up; one that is there is back if it had lapsed. -/
def get (key : κ) (f : σ → Option α) : Leased κ ε σ (Option α) := do
  match ← Recorded.load key fun x => f x.1 with
  | none => return none
  | some a =>
    renew key fun last => terms.revived last now
    return some a

/-- Write an entry, creating it when it is not there. -/
def set (stored : σ → κ → Bool) (key : κ) (f : σ → σ) : Leased κ ε σ Unit :=
  Recorded.store key fun x => (f x.1, Function.update x.2 key
    (if stored x.1 key then terms.revived (x.2 key) now else terms.fresh now))

/-- Delete an entry. -/
def remove (key : κ) (f : σ → σ) : Leased κ ε σ Unit := Recorded.store key fun x => (f x.1, x.2)

variable {terms now} {s : σ} {leases : Leases κ} {key : κ}

theorem does_renew (key : κ) (next : ℕ → ℕ) :
    Does (renew key next : Leased κ ε σ Unit) (s, leases) ()
      (s, Function.update leases key (next (leases key))) [.write key] := does_store key _ _

theorem does_get_none {f : σ → Option α} (h : f s = none) :
    Does (get terms now key f : Leased κ ε σ (Option α)) (s, leases) none (s, leases)
      [.read key] := by
  have hload : Does (Recorded.load key fun x => f x.1 : Leased κ ε σ (Option α)) (s, leases) none
      (s, leases) [.read key] := does_load key h
  exact hload.bind_pure rfl

theorem does_get_some {f : σ → Option α} {a : α} (h : f s = some a) :
    Does (get terms now key f : Leased κ ε σ (Option α)) (s, leases) (some a)
      (s, Function.update leases key (terms.revived (leases key) now)) [.read key, .write key] := by
  have hload : Does (Recorded.load key fun x => f x.1 : Leased κ ε σ (Option α)) (s, leases)
      (some a) (s, leases) [.read key] := does_load key h
  have hrenew : Does (renew key fun last => terms.revived last now : Leased κ ε σ Unit) (s, leases)
      () _ [.write key] := does_renew key _
  refine hload.bind ?_
  exact hrenew.bind_pure rfl

theorem does_set (stored : σ → κ → Bool) (f : σ → σ) :
    Does (set terms now stored key f : Leased κ ε σ Unit) (s, leases) ()
      (f s, Function.update leases key
        (if stored s key then terms.revived (leases key) now else terms.fresh now))
      [.write key] := does_store key _ _

omit [DecidableEq κ] in
theorem does_remove (f : σ → σ) :
    Does (remove key f : Leased κ ε σ Unit) (s, leases) () (f s, leases) [.write key] :=
  does_store key _ _

end Leased

section

variable {κ ε σ α β : Type} {terms : LeaseTerms} {stored : σ → κ → Bool} {now : ℕ}

/-! ## What is done to the leases -/

/-- **The leases are tended**: the accesses `log` led from `x` to `x'`. -/
structure Tended (terms : LeaseTerms) (stored : σ → κ → Bool) (now : ℕ) (log : List (Access κ))
    (x x' : σ × Leases κ) : Prop where
  within : terms.Within now x'.2
  grows : ∀ k, x.2 k ≤ x'.2 k
  renewed : ∀ k, .write k ∈ log → stored x'.1 k = true → now + terms.maxTtl / 2 ≤ x'.2 k
  created : ∀ k, stored x'.1 k = true → stored x.1 k = false → now + terms.maxTtl ≤ x'.2 k
  kept : ∀ k, .write k ∉ log → x'.2 k = x.2 k ∧ stored x'.1 k = stored x.1 k

variable {x x₁ x₂ : σ × Leases κ} {log log₁ log₂ : List (Access κ)}

theorem Tended.refl (h : terms.Within now x.2) : Tended terms stored now [] x x where
  within := h
  grows _ := Nat.le_refl _
  renewed _ hk := absurd hk List.not_mem_nil
  created _ h h' := by simp [h] at h'
  kept _ _ := ⟨rfl, rfl⟩

theorem Tended.trans (h : Tended terms stored now log₁ x x₁)
    (h' : Tended terms stored now log₂ x₁ x₂) :
    Tended terms stored now (log₁ ++ log₂) x x₂ where
  within := h'.within
  grows k := (h.grows k).trans (h'.grows k)
  renewed k hk hstored := by
    by_cases hk₂ : .write k ∈ log₂
    · exact h'.renewed k hk₂ hstored
    · have hk₁ := (List.mem_append.mp hk).resolve_right hk₂
      have hkept := (h'.kept k hk₂).2
      exact (h.renewed k hk₁ (hkept ▸ hstored)).trans (h'.grows k)
  created k hstored hnew := by
    cases hmid : stored x₁.1 k with
    | true => exact (h.created k hmid hnew).trans (h'.grows k)
    | false => exact h'.created k hstored hmid
  kept k hk := by
    rw [List.mem_append, not_or] at hk
    have hkept := h.kept k hk.1
    have hkept' := h'.kept k hk.2
    exact ⟨hkept'.1.trans hkept.1, hkept'.2.trans hkept.2⟩

/-- **Tending one entry**: its lease is moved on, and no other entry changes. -/
theorem tended_update [DecidableEq κ] {s s' : σ} {leases : Leases κ} {key : κ} {last : ℕ}
    (hwithin : terms.Within now leases) (hgrows : leases key ≤ last)
    (hle : last ≤ now + terms.maxTtl) (hrenewed : now + terms.maxTtl / 2 ≤ last)
    (hcreated : stored s' key = true → stored s key = false → now + terms.maxTtl ≤ last)
    (hframe : ∀ k, k ≠ key → stored s' k = stored s k) (hkey : .write key ∈ log)
    (honly : ∀ k, .write k ∈ log → k = key) :
    Tended terms stored now log (s, leases) (s', Function.update leases key last) where
  within k := by
    by_cases hk : k = key
    · simpa [hk] using hle
    · simpa [hk] using hwithin k
  grows k := by
    by_cases hk : k = key
    · simpa [hk] using hgrows
    · simp [hk]
  renewed k hmem _ := by simpa [honly k hmem] using hrenewed
  created k hstored hnew := by
    by_cases hk : k = key
    · subst hk
      simpa using hcreated hstored hnew
    · simp [hframe k hk, hnew] at hstored
  kept k hk := by
    have hne : k ≠ key := fun heq => hk (heq ▸ hkey)
    exact ⟨by simp [hne], hframe k hne⟩

/-- The entry under `k` is there for half of the longest time after `start`, if it is there. -/
def LivesOn (terms : LeaseTerms) (stored : σ → κ → Bool) (start : ℕ) (k : κ) (x : σ × Leases κ) :
    Prop := stored x.1 k = true → start + terms.maxTtl / 2 ≤ x.2 k

section

variable {start : ℕ} {k : κ} {x' : σ × Leases κ}

theorem Tended.created_livesOn (h : Tended terms stored now log x x') (hle : start ≤ now)
    (hnew : stored x.1 k = false) : LivesOn terms stored start k x' := fun hstored => by
  have hfull := h.created k hstored hnew
  have hhalf := Nat.div_le_self terms.maxTtl 2
  omega

/-- A step that touches the entry where it is there makes it live on. -/
theorem Tended.livesOn (h : Tended terms stored now log x x')
    (hkey : stored x.1 k = true → .write k ∈ log) : LivesOn terms stored now k x' := by
  cases hbefore : stored x.1 k with
  | true => exact h.renewed k (hkey hbefore)
  | false => exact h.created_livesOn le_rfl hbefore

/-- **No later step takes that away**: the entry keeps its lease, or is created with a longer
one. -/
theorem LivesOn.step (h : LivesOn terms stored start k x) (hnext : Tended terms stored now log x x')
    (hle : start ≤ now) : LivesOn terms stored start k x' := by
  cases hbefore : stored x.1 k with
  | true => exact fun _ => (h hbefore).trans (hnext.grows k)
  | false => exact hnext.created_livesOn hle hbefore

end

/-! ## What a program comes to -/

/-- **The program returns `a` and leaves `s'`**, whatever the leases; it tends them, and what it
touches includes the entries `keys`, where they are there. -/
def Tends (terms : LeaseTerms) (stored : σ → κ → Bool) (now : ℕ) (m : Leased κ ε σ α) (s : σ)
    (a : α) (s' : σ) (keys : List κ) : Prop :=
  ∀ leases, terms.Within now leases → ∃ leases' log, Does m (s, leases) a (s', leases') log ∧
    Tended terms stored now log (s, leases) (s', leases') ∧
      ∀ k ∈ keys, stored s k = true → .write k ∈ log

variable {m : Leased κ ε σ α} {f : α → Leased κ ε σ β} {s s₁ s₂ : σ} {a : α} {b : β} {e : ε}
  {keys keys₁ keys₂ : List κ}

theorem tends_pure (a : α) (s : σ) :
    Tends terms stored now (pure a : Leased κ ε σ α) s a s [] := fun leases h =>
  ⟨leases, [], does_pure a _, .refl h, fun _ hk => absurd hk List.not_mem_nil⟩

/-- **Sequencing.** -/
theorem Tends.bind (h : Tends terms stored now m s a s₁ keys₁)
    (h' : Tends terms stored now (f a) s₁ b s₂ keys₂) :
    Tends terms stored now (m >>= f) s b s₂ (keys₁ ++ keys₂) := fun leases hwithin => by
  obtain ⟨leases₁, log₁, hdoes₁, htended₁, hkeys₁⟩ := h leases hwithin
  obtain ⟨leases₂, log₂, hdoes₂, htended₂, hkeys₂⟩ := h' leases₁ htended₁.within
  refine ⟨leases₂, log₁ ++ log₂, hdoes₁.bind hdoes₂, htended₁.trans htended₂, ?_⟩
  intro k hk hstored
  rcases List.mem_append.mp hk with hk | hk
  · exact List.mem_append_left _ (hkeys₁ k hk hstored)
  -- an entry the first part deleted was touched by it
  · by_cases hk₁ : .write k ∈ log₁
    · exact List.mem_append_left _ hk₁
    · have hkept := (htended₁.kept k hk₁).2
      exact List.mem_append_right _ (hkeys₂ k hk (hkept.trans hstored))

theorem Tends.bind_quiet (h : Tends terms stored now m s a s₁ keys)
    (h' : Tends terms stored now (f a) s₁ b s₂ []) :
    Tends terms stored now (m >>= f) s b s₂ keys := by
  simpa only [List.append_nil] using h.bind h'

/-- A last step that only returns. -/
theorem Tends.bind_pure (h : Tends terms stored now m s a s₁ keys) (h' : f a = pure b) :
    Tends terms stored now (m >>= f) s b s₁ keys := h.bind_quiet (h' ▸ tends_pure b s₁)

theorem Tends.weaken (h : Tends terms stored now m s a s₁ keys) (hsub : keys₁ ⊆ keys) :
    Tends terms stored now m s a s₁ keys₁ := fun leases hwithin => by
  obtain ⟨leases', log, hdoes, htended, hkeys⟩ := h leases hwithin
  exact ⟨leases', log, hdoes, htended, fun k hk => hkeys k (hsub hk)⟩

/-- **A pass that leaves the storage alone** tends the same entries at each element. -/
theorem tends_mapM {f : α → Leased κ ε σ β} {g : α → β} :
    ∀ xs : List α, (∀ x ∈ xs, Tends terms stored now (f x) s (g x) s keys) →
      Tends terms stored now (xs.mapM f) s (xs.map g) s (xs.flatMap fun _ => keys)
  | [], _ => by
    rw [List.mapM_nil]
    exact tends_pure [] s
  | x :: xs, h => by
    rw [List.mapM_cons, List.flatMap_cons]
    refine (h x List.mem_cons_self).bind ?_
    have hrest := tends_mapM xs fun y hy => h y (List.mem_cons_of_mem x hy)
    rw [← List.append_nil (xs.flatMap fun _ => keys)]
    exact hrest.bind (tends_pure (g x :: xs.map g) s)

/-- **The program comes to what the plain one comes to**: the same failure, or the same storage and
result, with the leases tended. -/
def ComesTo (terms : LeaseTerms) (stored : σ → κ → Bool) (now : ℕ) (m : Leased κ ε σ α) (s : σ) :
    Except ε (σ × α) → Prop
  | .ok (s', a) => Tends terms stored now m s a s' []
  | .error e => ∀ leases, terms.Within now leases → Fails m (s, leases) e

theorem comesTo_fail (e : ε) (s : σ) :
    ComesTo terms stored now (Recorded.fail e : Leased κ ε σ α) s (.error e) :=
  fun leases _ => fails_fail e (s, leases)

/-- After a first part that returns, the rest decides. -/
theorem Tends.bind_comesTo {r : Except ε (σ × β)} (h : Tends terms stored now m s a s₁ keys)
    (h' : ComesTo terms stored now (f a) s₁ r) : ComesTo terms stored now (m >>= f) s r := by
  cases r with
  | ok x => exact (h.bind h').weaken (List.nil_subset _)
  | error e =>
    intro leases hwithin
    obtain ⟨leases₁, log, hdoes, htended, -⟩ := h leases hwithin
    exact hdoes.bind_fails (h' leases₁ htended.within)

theorem ComesTo.bind_error (h : ComesTo terms stored now m s (.error e)) :
    ComesTo terms stored now (m >>= f) s (.error e) := fun leases hwithin =>
  (h leases hwithin).bind

end

end Machinery
