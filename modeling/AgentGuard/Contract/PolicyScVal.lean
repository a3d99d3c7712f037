import AgentGuard.AgentTx.Entries
import AgentGuard.Contract.Validate
import Mathlib.Data.List.Sort
import Mathlib.Data.Set.List
import Mathlib.Data.String.Basic

/-!
# Contract/PolicyScVal — a policy from a host value

`validate_policy_config_scval` reads a policy out of a value nobody has checked.  The SDK aborts
when it unpacks a struct with other fields, and converts a `Vec` lazily, to abort when an element
turns out to be of another type; so the shape of the value is checked first.  The check is exact:
what passes it is an encoding with perhaps a wrong scalar (`PolicyShell`), reading it never aborts,
and what is accepted is precisely the encoding of a policy that `validate_config` accepts
(`validate_scval_exact`).
-/

namespace AgentGuard

open Machinery AgentTx

/-! ## Lists of values -/

namespace AgentTx

def ScVec.toList : ScVec → List ScVal
  | .nil => []
  | .cons head tail => head :: tail.toList

def ScMap.toList : ScMap → List (ScVal × ScVal)
  | .nil => []
  | .cons key val tail => (key, val) :: tail.toList

/-- Building a vector and reading it back, -/
@[simp] theorem ScVec.toList_ofList (l : List ScVal) : (ScVec.ofList l).toList = l := by
  induction l with
  | nil => rfl
  | cons v l ih => rw [ofList, toList, ih]

/-- in both directions. -/
@[simp] theorem ScVec.ofList_toList : ∀ items : ScVec, ScVec.ofList items.toList = items
  | .nil => rfl
  | .cons head tail => by rw [toList, ofList, ofList_toList tail]

/-- The entries of a struct, with its field names as keys. -/
@[simp] theorem ScMap.toList_ofFields (fields : List (Symbol × ScVal)) :
    (ScMap.ofFields fields).toList = fields.map fun f => (.symbol f.1, f.2) := by
  induction fields with
  | nil => rfl
  | cons f fields ih => rw [ofFields, toList, ih, List.map_cons]

/-- A map with symbols as keys is the record of its values. -/
theorem ScMap.eq_ofFields : ∀ {entries : ScMap} {names : List Symbol},
    entries.toList.map Prod.fst = names.map .symbol →
      entries = .ofFields (names.zip (entries.toList.map Prod.snd))
  | .nil, names, h => by
    obtain rfl : names = [] := by simpa [ScMap.toList] using h.symm
    rfl
  | .cons key val tail, names, h => by
    obtain ⟨name, names, rfl, hkey, htail⟩ := List.map_eq_cons_iff.mp
      (h.symm.trans (congrArg (List.map Prod.fst) (ScMap.toList.eq_2 key val tail)))
    obtain rfl : .symbol name = key := hkey
    rw [ScMap.toList, List.map_cons, List.zip_cons_cons, ScMap.ofFields,
      ← eq_ofFields htail.symm]

end AgentTx

/-! ## The shape check -/

/-- The loop over the entries: the keys are symbols, ascending, of the expected ones. -/
def keysAscend (expected : List Symbol) : Option Symbol → List (ScVal × ScVal) → Bool
  | _, [] => true
  | previousKey, (.symbol key, _) :: rest =>
    if (previousKey.any fun previous => decide (key ≤ previous)) || decide (key ∉ expected) then
      false
    else keysAscend expected (some key) rest
  | _, _ => false

/-- The keys are these fields, all of them, in ascending order. -/
def hasExactScvalFields (value : ScVal) (expected : List Symbol) : Bool :=
  match value with
  | .map entries =>
    if entries.toList.length ≠ expected.length then false
    else if !keysAscend expected none entries.toList then false
    else expected.all fun field => entries.toList.any fun entry => decide (entry.1 = .symbol field)
  | _ => false

/-- The value under a field. -/
def scvalField (value : ScVal) (field : Symbol) : Option ScVal :=
  match value with
  | .map entries =>
    entries.toList.findSome? fun entry => if entry.1 = .symbol field then some entry.2 else none
  | _ => none

def scvalIsAddress : ScVal → Bool
  | .address _ => true
  | _ => false

def scvalIsBool : ScVal → Bool
  | .bool _ => true
  | _ => false

def scvalIsI128 : ScVal → Bool
  | .i128 _ => true
  | _ => false

def scvalIsSymbol : ScVal → Bool
  | .symbol _ => true
  | _ => false

/-- `None` is `Void`, `Some` a vector of symbols. -/
def scvalIsSymbolListOrVoid : ScVal → Bool
  | .void => true
  | .vec items => items.toList.all scvalIsSymbol
  | _ => false

/-- A vector of addresses, every element looked at. -/
def scvalVecIsAddresses : ScVal → Bool
  | .vec items => items.toList.all scvalIsAddress
  | _ => false

/-- The fields of a `PolicyConfig`, in the order of the source. -/
def policyFields : List Symbol :=
  ["per_tx_cap", "window_secs", "window_cap", "assets", "asset_caps", "protocols", "recipients",
    "recipient_window_caps", "blocked_recipients", "allow_any_recipient", "active_from",
    "active_until", "paused", "dms_grace_secs", "protocol_calls_per_window"]

def addressListFields : List Symbol := ["assets", "recipients", "blocked_recipients"]

/-- The shape of an `AssetCap`: its fields, each of its type. -/
def assetCapIsSafe (cap : ScVal) : Bool :=
  hasExactScvalFields cap ["asset", "paused", "per_tx_cap"] &&
    (scvalField cap "asset").any scvalIsAddress && (scvalField cap "paused").any scvalIsBool &&
    (scvalField cap "per_tx_cap").any scvalIsI128

/-- The shape of a `ProtocolRule`. -/
def protocolRuleIsSafe (rule : ScVal) : Bool :=
  hasExactScvalFields rule ["contract", "fns", "paused"] &&
    (scvalField rule "contract").any scvalIsAddress &&
    (scvalField rule "fns").any scvalIsSymbolListOrVoid &&
    (scvalField rule "paused").any scvalIsBool

/-- The shape of a `RecipientCap`. -/
def recipientCapIsSafe (cap : ScVal) : Bool :=
  hasExactScvalFields cap ["recipient", "cap"] && (scvalField cap "recipient").any scvalIsAddress &&
    (scvalField cap "cap").any scvalIsI128

/-- The fields of a policy and the elements of its vectors; of a scalar field only that it is there.
-/
def policyConfigScvalHasSafeStructShape (value : ScVal) : Bool :=
  if !hasExactScvalFields value policyFields then false
  else if !addressListFields.all fun field => (scvalField value field).any scvalVecIsAddresses then
    false
  else
    match scvalField value "asset_caps" with
    | some (.vec assetCaps) =>
      if !assetCaps.toList.all assetCapIsSafe then false
      else
        match scvalField value "protocols" with
        | some (.vec protocols) =>
          if !protocols.toList.all protocolRuleIsSafe then false
          else
            match scvalField value "recipient_window_caps" with
            | some (.vec recipientCaps) => recipientCaps.toList.all recipientCapIsSafe
            | _ => false
        | _ => false
    | _ => false

/-! ## The SDK's conversion -/

/-- How a conversion fails: with an error, or with an abort of the process. -/
inductive Misread
  | conversion
  | abort
deriving DecidableEq

/-- The values of a struct with these fields, in the order of their names.  A map with other keys is
not unpacked: the host traps. -/
def unpackStruct (names : List Symbol) : ScVal → Except Misread (List ScVal)
  | .map entries =>
    if entries.toList.map Prod.fst = names.map .symbol then .ok (entries.toList.map Prod.snd)
    else .error .abort
  | _ => .error .conversion

/-- The scalar conversions: another type is an error, and no abort. -/
def readAddress : ScVal → Except Misread Address
  | .address a => .ok a
  | _ => .error .conversion

def readBool : ScVal → Except Misread Bool
  | .bool b => .ok b
  | _ => .error .conversion

def readI128 : ScVal → Except Misread I128
  | .i128 n => .ok n
  | _ => .error .conversion

def readU64 : ScVal → Except Misread U64
  | .u64 n => .ok n
  | _ => .error .conversion

def readU32 : ScVal → Except Misread U32
  | .u32 n => .ok n
  | _ => .error .conversion

def readSymbol : ScVal → Except Misread Symbol
  | .symbol name => .ok name
  | _ => .error .conversion

/-- One element of a `Vec`, when it is got. -/
def readItem {α : Type} (read : ScVal → Except Misread α) (item : ScVal) : Except Misread α :=
  match read item with
  | .ok a => .ok a
  | .error _ => .error .abort

/-- All elements of a `Vec`. -/
def getAll {α : Type} (read : ScVal → Except Misread α) (items : ScVec) : Except Misread (List α) :=
  items.toList.mapM (readItem read)

/-- A `Vec`: only being a vector is checked. -/
def readVec : ScVal → Except Misread ScVec
  | .vec items => .ok items
  | _ => .error .conversion

/-- `Option<Vec<Symbol>>`: void is `None`. -/
def readFns : ScVal → Except Misread (Option (List Symbol))
  | .void => .ok none
  | v => do return some (← getAll readSymbol (← readVec v))

/-- `AssetCap::try_from_val`. -/
def readAssetCap (v : ScVal) : Except Misread AssetCap := do
  match ← unpackStruct ["asset", "paused", "per_tx_cap"] v with
  | [asset, paused, perTxCap] =>
    return ⟨← readAddress asset, ← readI128 perTxCap, ← readBool paused⟩
  | _ => .error .conversion

/-- `ProtocolRule::try_from_val`. -/
def readProtocolRule (v : ScVal) : Except Misread ProtocolRule := do
  match ← unpackStruct ["contract", "fns", "paused"] v with
  | [contract, fns, paused] => return ⟨← readAddress contract, ← readFns fns, ← readBool paused⟩
  | _ => .error .conversion

/-- `RecipientCap::try_from_val`. -/
def readRecipientCap (v : ScVal) : Except Misread RecipientCap := do
  match ← unpackStruct ["cap", "recipient"] v with
  | [cap, recipient] => return ⟨← readAddress recipient, ← readI128 cap⟩
  | _ => .error .conversion

/-- A converted policy, its vectors not looked into. -/
structure LazyPolicyConfig where
  perTxCap : I128
  windowSecs : U64
  windowCap : I128
  assets : ScVec
  protocols : ScVec
  recipients : ScVec
  recipientWindowCaps : ScVec
  blockedRecipients : ScVec
  assetCaps : ScVec
  allowAnyRecipient : Bool
  activeFrom : U64
  activeUntil : U64
  paused : Bool
  dmsGraceSecs : U64
  protocolCallsPerWindow : U32

/-- The fields of a policy, as a value holds them. -/
def sortedPolicyFields : List Symbol :=
  ["active_from", "active_until", "allow_any_recipient", "asset_caps", "assets",
    "blocked_recipients", "dms_grace_secs", "paused", "per_tx_cap", "protocol_calls_per_window",
    "protocols", "recipient_window_caps", "recipients", "window_cap", "window_secs"]

/-- `PolicyConfig::try_from_val`. -/
def policyConfigTryFromVal (v : ScVal) : Except Misread LazyPolicyConfig := do
  match ← unpackStruct sortedPolicyFields v with
  | [activeFrom, activeUntil, allowAnyRecipient, assetCaps, assets, blockedRecipients, dmsGraceSecs,
      paused, perTxCap, protocolCallsPerWindow, protocols, recipientWindowCaps, recipients,
      windowCap, windowSecs] =>
    return {
      activeFrom := ← readU64 activeFrom
      activeUntil := ← readU64 activeUntil
      allowAnyRecipient := ← readBool allowAnyRecipient
      assetCaps := ← readVec assetCaps
      assets := ← readVec assets
      blockedRecipients := ← readVec blockedRecipients
      dmsGraceSecs := ← readU64 dmsGraceSecs
      paused := ← readBool paused
      perTxCap := ← readI128 perTxCap
      protocolCallsPerWindow := ← readU32 protocolCallsPerWindow
      protocols := ← readVec protocols
      recipientWindowCaps := ← readVec recipientWindowCaps
      recipients := ← readVec recipients
      windowCap := ← readI128 windowCap
      windowSecs := ← readU64 windowSecs }
  | _ => .error .conversion

/-- The policy with every element got, as `validate_config` may. -/
def LazyPolicyConfig.force (cfg : LazyPolicyConfig) : Except Misread PolicyConfig := do
  return {
    perTxCap := cfg.perTxCap
    windowSecs := cfg.windowSecs
    windowCap := cfg.windowCap
    assets := ← getAll readAddress cfg.assets
    protocols := ← getAll readProtocolRule cfg.protocols
    recipients := ← getAll readAddress cfg.recipients
    recipientWindowCaps := ← getAll readRecipientCap cfg.recipientWindowCaps
    blockedRecipients := ← getAll readAddress cfg.blockedRecipients
    assetCaps := ← getAll readAssetCap cfg.assetCaps
    allowAnyRecipient := cfg.allowAnyRecipient
    activeFrom := cfg.activeFrom
    activeUntil := cfg.activeUntil
    paused := cfg.paused
    dmsGraceSecs := cfg.dmsGraceSecs
    protocolCallsPerWindow := cfg.protocolCallsPerWindow }

/-- `validate_policy_config_scval` of the account `self`; `none` when the process aborts.  The
host's own conversion of the value is `valTryFrom`. -/
def validatePolicyConfigScval (valTryFrom : ScVal → Bool) (self : Address) (v : ScVal) :
    Option (Except Error Unit) :=
  if !policyConfigScvalHasSafeStructShape v then some (.error .invalidConfig)
  else if !valTryFrom v then some (.error .invalidConfig)
  else
    match policyConfigTryFromVal v with
    | .error .conversion => some (.error .invalidConfig)
    | .error .abort => none
    | .ok cfg =>
      match cfg.force with
      | .error _ => none
      | .ok cfg => some (validateConfig self cfg)

/-! ## Records with these names -/

section

variable {v : ScVal} {expected sorted : List Symbol}

/-- What the loop over the keys has seen. -/
theorem of_keysAscend {previousKey : Option Symbol} {entries : List (ScVal × ScVal)}
    (h : keysAscend expected previousKey entries = true) :
    ∃ names : List Symbol, entries.map Prod.fst = names.map .symbol ∧ names.Pairwise (· < ·) ∧
      (∀ n ∈ names, n ∈ expected) ∧ ∀ p ∈ previousKey, ∀ n ∈ names, p < n := by
  induction entries generalizing previousKey with
  | nil => exact ⟨[], rfl, .nil, by simp, by simp⟩
  | cons entry rest ih =>
    obtain ⟨key, val⟩ := entry
    cases key with
    | symbol key =>
      rw [keysAscend] at h
      split_ifs at h with hbad
      obtain ⟨names, hmap, hsorted, hmem, hlt⟩ := ih h
      simp only [Bool.or_eq_true, decide_eq_true_eq, not_or, not_not] at hbad
      have hlast : ∀ p ∈ previousKey, p < key := fun p hp => by
        have := hbad.1
        rw [Option.mem_def.mp hp] at this
        simpa using this
      refine ⟨key :: names, by rw [List.map_cons, List.map_cons, hmap],
        List.pairwise_cons.mpr ⟨hlt key rfl, hsorted⟩, ?_, fun p hp n hn => ?_⟩
      · exact List.forall_mem_cons.mpr ⟨hbad.2, hmem⟩
      · rcases List.mem_cons.mp hn with rfl | hn
        · exact hlast p hp
        · exact (hlast p hp).trans (hlt key rfl n hn)
    | _ => simp [keysAscend] at h

/-- Keys that ascend, above the last one, pass the loop. -/
theorem keysAscend_of {previousKey : Option Symbol} {names : List Symbol}
    (hsorted : names.Pairwise (· < ·)) (hmem : ∀ n ∈ names, n ∈ expected)
    (hlt : ∀ p ∈ previousKey, ∀ n ∈ names, p < n) {entries : List (ScVal × ScVal)}
    (hmap : entries.map Prod.fst = names.map .symbol) :
    keysAscend expected previousKey entries = true := by
  induction names generalizing previousKey entries with
  | nil =>
    rw [List.map_nil, List.map_eq_nil_iff] at hmap
    rw [hmap, keysAscend]
  | cons name names ih =>
    obtain ⟨entry, rest, rfl, hkey, hrest⟩ := List.map_eq_cons_iff.mp (hmap.trans List.map_cons)
    obtain ⟨key, val⟩ := entry
    obtain rfl : key = .symbol name := hkey
    rw [List.pairwise_cons] at hsorted
    rw [keysAscend, if_neg]
    · exact ih hsorted.2 (fun n hn => hmem n (List.mem_cons_of_mem _ hn))
        (fun p hp n hn => Option.mem_some.mp hp ▸ hsorted.1 n hn) hrest
    · have hin := hmem name List.mem_cons_self
      cases previousKey with
      | none => simp [hin]
      | some p => simpa [hin] using hlt p rfl name List.mem_cons_self

/-- A struct built from its fields has these keys, in this order. -/
theorem toList_ofFields_zip {vals : List ScVal} (hlen : vals.length = sorted.length) :
    (ScMap.ofFields (sorted.zip vals)).toList.map Prod.fst = sorted.map .symbol := by
  have hnames : (sorted.zip vals).map Prod.fst = sorted := List.map_fst_zip hlen.ge
  rw [ScMap.toList_ofFields, List.map_map]
  calc (sorted.zip vals).map (Prod.fst ∘ fun f => (ScVal.symbol f.1, f.2))
      = ((sorted.zip vals).map Prod.fst).map .symbol := by rw [List.map_map]; rfl
    _ = sorted.map .symbol := by rw [hnames]

/-- **A value passes the field check when it is the map of a record** with these names, in their
order. -/
theorem hasExactScvalFields_iff (sorted : List Symbol) (hperm : sorted.Perm expected)
    (hsorted : sorted.Pairwise (· < ·)) :
    hasExactScvalFields v expected = true
      ↔ ∃ vals : List ScVal, vals.length = sorted.length ∧
        v = .map (.ofFields (sorted.zip vals)) := by
  constructor
  · intro h
    cases v with
    | map entries =>
      rw [hasExactScvalFields] at h
      split_ifs at h with hlen hkeys
      obtain ⟨names, hmap, hnames, hmem, -⟩ := of_keysAscend (by simpa using hkeys)
      have hcount : names.length = expected.length := by
        rw [← List.length_map (f := ScVal.symbol), ← hmap, List.length_map]
        exact not_not.mp hlen
      -- as many different names, all of them expected
      have hall : names.Perm expected :=
        (List.subperm_of_subset (hnames.imp fun h => h.ne) hmem).perm_of_length_le hcount.ge
      obtain rfl : names = sorted := (hall.trans hperm.symm).eq_of_pairwise
        (fun _ _ _ _ h h' => absurd h' h.not_gt) hnames hsorted
      refine ⟨entries.toList.map Prod.snd, ?_, congrArg _ (ScMap.eq_ofFields hmap)⟩
      rw [List.length_map, hcount]
      exact not_not.mp hlen
    | _ => exact absurd h Bool.false_ne_true
  · rintro ⟨vals, hlen, rfl⟩
    have hkeys := toList_ofFields_zip hlen
    have hcount : (ScMap.ofFields (sorted.zip vals)).toList.length = expected.length := by
      rw [← hperm.length_eq, ← List.length_map (f := ScVal.symbol), ← hkeys, List.length_map]
    rw [hasExactScvalFields, if_neg (not_not.mpr hcount), if_neg]
    · refine List.all_eq_true.mpr fun field hfield => List.any_eq_true.mpr ?_
      have hin : ScVal.symbol field ∈ (ScMap.ofFields (sorted.zip vals)).toList.map Prod.fst :=
        hkeys ▸ List.mem_map_of_mem (hperm.mem_iff.mpr hfield)
      obtain ⟨entry, hentry, hkey⟩ := List.mem_map.mp hin
      exact ⟨entry, hentry, decide_eq_true hkey⟩
    · rw [keysAscend_of hsorted (fun n hn => hperm.mem_iff.mp hn) (fun p hp => by cases hp) hkeys]
      exact Bool.false_ne_true

/-- A vector passes element by element when it is a vector of encodings. -/
theorem all_toList_iff {α : Type} {check : ScVal → Bool} {encode : α → ScVal}
    (h : ∀ v, check v = true ↔ ∃ a, v = encode a) (items : ScVec) :
    items.toList.all check = true ↔ ∃ l : List α, items = .ofList (l.map encode) := by
  have hrange : (∀ v ∈ items.toList, v ∈ Set.range encode)
      ↔ items.toList ∈ Set.range (List.map encode) := by
    rw [Set.range_list_map]
    rfl
  calc items.toList.all check = true ↔ ∀ v ∈ items.toList, v ∈ Set.range encode := by
        rw [List.all_eq_true]
        exact forall₂_congr fun v _ => (h v).trans (exists_congr fun _ => eq_comm)
    _ ↔ items.toList ∈ Set.range (List.map encode) := hrange
    _ ↔ ∃ l : List α, items = .ofList (l.map encode) := by
        refine exists_congr fun l => ⟨fun hl => ?_, fun hl => ?_⟩
        · rw [hl, ScVec.ofList_toList]
        · rw [hl, ScVec.toList_ofList]

end

/-! ## What passes the shape check -/

/-- What the element checks accept. -/
theorem scvalIsAddress_iff {v : ScVal} : scvalIsAddress v = true ↔ ∃ a, v = .address a := by
  cases v <;> simp [scvalIsAddress]

theorem scvalIsBool_iff {v : ScVal} : scvalIsBool v = true ↔ ∃ b, v = .bool b := by
  cases v <;> simp [scvalIsBool]

theorem scvalIsI128_iff {v : ScVal} : scvalIsI128 v = true ↔ ∃ n, v = .i128 n := by
  cases v <;> simp [scvalIsI128]

theorem scvalIsSymbol_iff {v : ScVal} : scvalIsSymbol v = true ↔ ∃ name, v = .symbol name := by
  cases v <;> simp [scvalIsSymbol]

/-- The functions of a rule, as a value holds them. -/
def fnsScVal (fns : Option (List Symbol)) : ScVal :=
  fns.elim .void fun fns => .vec (.ofList (fns.map .symbol))

/-- **An accepted function list is the encoding of one.** -/
theorem scvalIsSymbolListOrVoid_iff {v : ScVal} :
    scvalIsSymbolListOrVoid v = true ↔ ∃ fns, v = fnsScVal fns := by
  cases v with
  | void => exact ⟨fun _ => ⟨none, rfl⟩, fun _ => rfl⟩
  | vec items =>
    rw [scvalIsSymbolListOrVoid, all_toList_iff (fun _ => scvalIsSymbol_iff)]
    constructor
    · rintro ⟨fns, rfl⟩
      exact ⟨some fns, rfl⟩
    · rintro ⟨_ | fns, hfns⟩
      · cases hfns
      · exact ⟨fns, by injection hfns⟩
  | _ =>
    refine ⟨fun h => absurd h Bool.false_ne_true, ?_⟩
    rintro ⟨_ | fns, hfns⟩ <;> cases hfns

/-- **An accepted element is an encoding**, of an asset cap, -/
theorem assetCapIsSafe_iff (v : ScVal) : assetCapIsSafe v = true ↔ ∃ a, v = assetCapScVal a := by
  constructor
  · intro h
    simp only [assetCapIsSafe, Bool.and_eq_true] at h
    obtain ⟨⟨⟨hfields, hasset⟩, hpaused⟩, hcap⟩ := h
    obtain ⟨vals, hlen, rfl⟩ := (hasExactScvalFields_iff
      ["asset", "paused", "per_tx_cap"] (.refl _) (by decide)).mp hfields
    obtain ⟨asset, paused, cap, rfl⟩ := List.length_eq_three.mp hlen
    obtain ⟨asset, rfl⟩ := scvalIsAddress_iff.mp hasset
    obtain ⟨paused, rfl⟩ := scvalIsBool_iff.mp hpaused
    obtain ⟨cap, rfl⟩ := scvalIsI128_iff.mp hcap
    exact ⟨⟨asset, cap, paused⟩, rfl⟩
  · rintro ⟨a, rfl⟩
    rfl

/-- of a protocol rule, -/
theorem protocolRuleIsSafe_iff (v : ScVal) :
    protocolRuleIsSafe v = true ↔ ∃ rule, v = protocolRuleScVal rule := by
  constructor
  · intro h
    simp only [protocolRuleIsSafe, Bool.and_eq_true] at h
    obtain ⟨⟨⟨hfields, hcontract⟩, hfns⟩, hpaused⟩ := h
    obtain ⟨vals, hlen, rfl⟩ := (hasExactScvalFields_iff
      ["contract", "fns", "paused"] (.refl _) (by decide)).mp hfields
    obtain ⟨contract, fns, paused, rfl⟩ := List.length_eq_three.mp hlen
    obtain ⟨contract, rfl⟩ := scvalIsAddress_iff.mp hcontract
    obtain ⟨fns, rfl⟩ := scvalIsSymbolListOrVoid_iff.mp hfns
    obtain ⟨paused, rfl⟩ := scvalIsBool_iff.mp hpaused
    exact ⟨⟨contract, fns, paused⟩, rfl⟩
  · rintro ⟨rule, rfl⟩
    have hfns : scvalIsSymbolListOrVoid (fnsScVal rule.fns) = true :=
      scvalIsSymbolListOrVoid_iff.mpr ⟨rule.fns, rfl⟩
    calc protocolRuleIsSafe (protocolRuleScVal rule)
        = (scvalIsSymbolListOrVoid (fnsScVal rule.fns) && true) := rfl
      _ = true := by rw [hfns, Bool.and_true]

/-- of a recipient cap, -/
theorem recipientCapIsSafe_iff (v : ScVal) :
    recipientCapIsSafe v = true ↔ ∃ r, v = recipientCapScVal r := by
  constructor
  · intro h
    simp only [recipientCapIsSafe, Bool.and_eq_true] at h
    obtain ⟨⟨hfields, hrecipient⟩, hcap⟩ := h
    obtain ⟨vals, hlen, rfl⟩ := (hasExactScvalFields_iff ["cap", "recipient"]
      (by decide) (by decide)).mp hfields
    obtain ⟨cap, recipient, rfl⟩ := List.length_eq_two.mp hlen
    obtain ⟨recipient, rfl⟩ := scvalIsAddress_iff.mp hrecipient
    obtain ⟨cap, rfl⟩ := scvalIsI128_iff.mp hcap
    exact ⟨⟨recipient, cap⟩, rfl⟩
  · rintro ⟨r, rfl⟩
    rfl

/-- or of a list of addresses. -/
theorem scvalVecIsAddresses_iff {v : ScVal} :
    scvalVecIsAddresses v = true ↔ ∃ l, v = addressesScVal l := by
  cases v with
  | vec items =>
    rw [scvalVecIsAddresses, all_toList_iff fun _ => scvalIsAddress_iff]
    exact exists_congr fun l => ⟨fun h => h ▸ rfl, fun h => by injection h⟩
  | _ => exact ⟨fun h => absurd h Bool.false_ne_true, fun ⟨l, h⟩ => by cases h⟩

/-- A policy whose scalars may be of any type. -/
structure PolicyShell where
  activeFrom : ScVal
  activeUntil : ScVal
  allowAnyRecipient : ScVal
  assetCaps : List AssetCap
  assets : List Address
  blockedRecipients : List Address
  dmsGraceSecs : ScVal
  paused : ScVal
  perTxCap : ScVal
  protocolCallsPerWindow : ScVal
  protocols : List ProtocolRule
  recipientWindowCaps : List RecipientCap
  recipients : List Address
  windowCap : ScVal
  windowSecs : ScVal

/-- The values of a shell, in the order of their names. -/
def PolicyShell.vals (shell : PolicyShell) : List ScVal :=
  [shell.activeFrom, shell.activeUntil, shell.allowAnyRecipient,
    .vec (.ofList (shell.assetCaps.map assetCapScVal)), addressesScVal shell.assets,
    addressesScVal shell.blockedRecipients, shell.dmsGraceSecs, shell.paused, shell.perTxCap,
    shell.protocolCallsPerWindow, .vec (.ofList (shell.protocols.map protocolRuleScVal)),
    .vec (.ofList (shell.recipientWindowCaps.map recipientCapScVal)),
    addressesScVal shell.recipients, shell.windowCap, shell.windowSecs]

/-- The value a shell stands for. -/
def PolicyShell.scval (shell : PolicyShell) : ScVal :=
  .map (.ofFields (sortedPolicyFields.zip shell.vals))

/-- Fifteen values, one for each field. -/
theorem exists_policyVals {vals : List ScVal} (hlen : vals.length = sortedPolicyFields.length) :
    ∃ activeFrom activeUntil allowAnyRecipient assetCaps assets blockedRecipients dmsGraceSecs
      paused perTxCap protocolCallsPerWindow protocols recipientWindowCaps recipients windowCap
      windowSecs,
      vals = [activeFrom, activeUntil, allowAnyRecipient, assetCaps, assets, blockedRecipients,
        dmsGraceSecs, paused, perTxCap, protocolCallsPerWindow, protocols, recipientWindowCaps,
        recipients, windowCap, windowSecs] := by
  match vals, hlen with
  | [_, _, _, _, _, _, _, _, _, _, _, _, _, _, _], _ =>
    exact ⟨_, _, _, _, _, _, _, _, _, _, _, _, _, _, _, rfl⟩

/-- **What passes the shape check is a policy**, but for the types of its scalars. -/
theorem hasSafeStructShape_iff (v : ScVal) :
    policyConfigScvalHasSafeStructShape v = true ↔ ∃ shell : PolicyShell, v = shell.scval := by
  constructor
  · intro h
    rw [policyConfigScvalHasSafeStructShape] at h
    split_ifs at h with hfields haddresses
    rw [Bool.not_eq_true, Bool.not_eq_false'] at hfields haddresses
    obtain ⟨vals, hlen, rfl⟩ := (hasExactScvalFields_iff sortedPolicyFields
      (by decide) (by decide)).mp hfields
    obtain ⟨activeFrom, activeUntil, allowAnyRecipient, assetCaps, assets, blockedRecipients,
      dmsGraceSecs, paused, perTxCap, protocolCallsPerWindow, protocols, recipientWindowCaps,
      recipients, windowCap, windowSecs, rfl⟩ := exists_policyVals hlen
    rw [List.all_eq_true] at haddresses
    obtain ⟨assets, rfl⟩ := scvalVecIsAddresses_iff.mp (haddresses "assets" (by decide))
    obtain ⟨recipients, rfl⟩ := scvalVecIsAddresses_iff.mp (haddresses "recipients" (by decide))
    obtain ⟨blockedRecipients, rfl⟩ :=
      scvalVecIsAddresses_iff.mp (haddresses "blocked_recipients" (by decide))
    -- the three vectors of records, one after the other
    split at h
    case h_2 => cases h
    rename_i assetCapItems hassetCaps
    obtain rfl : assetCaps = .vec assetCapItems := Option.some.inj hassetCaps
    split_ifs at h with hcaps
    split at h
    case h_2 => cases h
    rename_i ruleItems hprotocols
    obtain rfl : protocols = .vec ruleItems := Option.some.inj hprotocols
    split_ifs at h with hrules
    split at h
    case h_2 => cases h
    rename_i recipientCapItems hrecipientCaps
    obtain rfl : recipientWindowCaps = .vec recipientCapItems := Option.some.inj hrecipientCaps
    rw [Bool.not_eq_true, Bool.not_eq_false'] at hcaps hrules
    obtain ⟨assetCaps, rfl⟩ := (all_toList_iff assetCapIsSafe_iff _).mp hcaps
    obtain ⟨protocols, rfl⟩ := (all_toList_iff protocolRuleIsSafe_iff _).mp hrules
    obtain ⟨recipientWindowCaps, rfl⟩ := (all_toList_iff recipientCapIsSafe_iff _).mp h
    exact ⟨⟨activeFrom, activeUntil, allowAnyRecipient, assetCaps, assets, blockedRecipients,
      dmsGraceSecs, paused, perTxCap, protocolCallsPerWindow, protocols, recipientWindowCaps,
      recipients, windowCap, windowSecs⟩, rfl⟩
  · rintro ⟨shell, rfl⟩
    have hfields : hasExactScvalFields shell.scval policyFields = true :=
      (hasExactScvalFields_iff sortedPolicyFields (by decide) (by decide)).mpr
        ⟨shell.vals, rfl, rfl⟩
    have haddresses : ∀ l, scvalVecIsAddresses (addressesScVal l) = true := fun l =>
      scvalVecIsAddresses_iff.mpr ⟨l, rfl⟩
    have hlists : addressListFields.all
        (fun field => (scvalField shell.scval field).any scvalVecIsAddresses) = true := by
      refine List.all_eq_true.mpr fun field hin => ?_
      simp only [addressListFields, List.mem_cons, List.not_mem_nil, or_false] at hin
      rcases hin with rfl | rfl | rfl <;> exact haddresses _
    have hcaps := (all_toList_iff assetCapIsSafe_iff _).mpr ⟨shell.assetCaps, rfl⟩
    have hrules := (all_toList_iff protocolRuleIsSafe_iff _).mpr ⟨shell.protocols, rfl⟩
    have hrecipientCaps :=
      (all_toList_iff recipientCapIsSafe_iff _).mpr ⟨shell.recipientWindowCaps, rfl⟩
    have hassetField : scvalField shell.scval "asset_caps"
        = some (.vec (.ofList (shell.assetCaps.map assetCapScVal))) := rfl
    have hrulesField : scvalField shell.scval "protocols"
        = some (.vec (.ofList (shell.protocols.map protocolRuleScVal))) := rfl
    have hrecipientField : scvalField shell.scval "recipient_window_caps"
        = some (.vec (.ofList (shell.recipientWindowCaps.map recipientCapScVal))) := rfl
    simp only [policyConfigScvalHasSafeStructShape, hfields, hlists, hassetField, hrulesField,
      hrecipientField, hcaps, hrules, hrecipientCaps, Bool.not_true, Bool.false_eq_true, if_false]

/-! ## Reading what passed -/

/-- The elements of a vector of encodings are got without an abort. -/
theorem getAll_ofList {α : Type} {read : ScVal → Except Misread α} {encode : α → ScVal}
    (h : ∀ a, read (encode a) = .ok a) (l : List α) :
    getAll read (.ofList (l.map encode)) = .ok l := by
  rw [getAll, ScVec.toList_ofList]
  induction l with
  | nil => rfl
  | cons a l ih =>
    rw [List.map_cons, List.mapM_cons, ih]
    simp only [readItem, h]
    rfl

theorem readSymbol_symbol (name : Symbol) : readSymbol (.symbol name) = .ok name := rfl

theorem readAddress_address (a : Address) : readAddress (.address a) = .ok a := rfl

/-- Reading an encoding gives back what was encoded. -/
theorem readFns_fnsScVal (fns : Option (List Symbol)) : readFns (fnsScVal fns) = .ok fns := by
  cases fns with
  | none => rfl
  | some fns =>
    calc readFns (fnsScVal (some fns))
        = (getAll readSymbol (.ofList (fns.map .symbol)) >>= fun l => .ok (some l)) := rfl
      _ = .ok (some fns) := by rw [getAll_ofList readSymbol_symbol]; rfl

theorem readAssetCap_assetCapScVal (a : AssetCap) : readAssetCap (assetCapScVal a) = .ok a := rfl

theorem readRecipientCap_recipientCapScVal (r : RecipientCap) :
    readRecipientCap (recipientCapScVal r) = .ok r := rfl

theorem readProtocolRule_protocolRuleScVal (rule : ProtocolRule) :
    readProtocolRule (protocolRuleScVal rule) = .ok rule := by
  calc readProtocolRule (protocolRuleScVal rule)
      = (readFns (fnsScVal rule.fns) >>= fun fns => .ok ⟨rule.contract, fns, rule.paused⟩) := rfl
    _ = .ok rule := by rw [readFns_fnsScVal]; rfl

/-- A policy as a shell, its scalars of the right types. -/
def PolicyConfig.shell (cfg : PolicyConfig) : PolicyShell :=
  ⟨.u64 cfg.activeFrom, .u64 cfg.activeUntil, .bool cfg.allowAnyRecipient, cfg.assetCaps,
    cfg.assets, cfg.blockedRecipients, .u64 cfg.dmsGraceSecs, .bool cfg.paused, .i128 cfg.perTxCap,
    .u32 cfg.protocolCallsPerWindow, cfg.protocols, cfg.recipientWindowCaps, cfg.recipients,
    .i128 cfg.windowCap, .u64 cfg.windowSecs⟩

/-- What converting a policy gives. -/
def PolicyConfig.lazy (cfg : PolicyConfig) : LazyPolicyConfig where
  perTxCap := cfg.perTxCap
  windowSecs := cfg.windowSecs
  windowCap := cfg.windowCap
  assets := .ofList (cfg.assets.map .address)
  protocols := .ofList (cfg.protocols.map protocolRuleScVal)
  recipients := .ofList (cfg.recipients.map .address)
  recipientWindowCaps := .ofList (cfg.recipientWindowCaps.map recipientCapScVal)
  blockedRecipients := .ofList (cfg.blockedRecipients.map .address)
  assetCaps := .ofList (cfg.assetCaps.map assetCapScVal)
  allowAnyRecipient := cfg.allowAnyRecipient
  activeFrom := cfg.activeFrom
  activeUntil := cfg.activeUntil
  paused := cfg.paused
  dmsGraceSecs := cfg.dmsGraceSecs
  protocolCallsPerWindow := cfg.protocolCallsPerWindow

/-- **Getting every element gives the policy back.** -/
theorem force_lazy (cfg : PolicyConfig) : cfg.lazy.force = .ok cfg := by
  simp only [LazyPolicyConfig.force, PolicyConfig.lazy, getAll_ofList readAddress_address,
    getAll_ofList readAssetCap_assetCapScVal, getAll_ofList readProtocolRule_protocolRuleScVal,
    getAll_ofList readRecipientCap_recipientCapScVal]
  rfl

/-- A conversion that does not abort, and gives what is in `out`. -/
structure Reads {α : Type} (x : Except Misread α) (out : α → Prop) : Prop where
  ok_iff : ∀ a, x = .ok a ↔ out a
  ne_abort : x ≠ .error .abort

/-- The rules of `Reads`: its outcome up to equivalence, -/
theorem Reads.congr {α : Type} {x : Except Misread α} {out out' : α → Prop} (h : Reads x out)
    (hout : ∀ a, out a ↔ out' a) : Reads x out' :=
  ⟨fun a => (h.ok_iff a).trans (hout a), h.ne_abort⟩

/-- one conversion after another, -/
theorem Reads.bind {α β : Type} {x : Except Misread α} {f : α → Except Misread β} {out : α → Prop}
    {next : α → β → Prop} (hx : Reads x out) (hf : ∀ a, Reads (f a) (next a)) :
    Reads (x >>= f) fun b => ∃ a, out a ∧ next a b := by
  simp only [← hx.ok_iff, ← (hf _).ok_iff]
  cases x with
  | ok a =>
    refine ⟨fun b => ⟨fun h => ⟨a, rfl, h⟩, ?_⟩, (hf a).ne_abort⟩
    rintro ⟨a', ha, h⟩
    rwa [← Except.ok.inj ha] at h
  | error e =>
    refine ⟨fun b => ⟨fun h => ?_, ?_⟩, fun h => hx.ne_abort (congrArg _ (Except.error.inj h))⟩
    · cases h
    · rintro ⟨a, ha, -⟩
      cases ha

/-- and none at all. -/
theorem reads_pure {α : Type} (a : α) : Reads (pure a) fun b => b = a :=
  ⟨fun _ => ⟨fun h => (Except.ok.inj h).symm, fun h => congrArg _ h.symm⟩, fun h => by cases h⟩

/-- **A scalar conversion succeeds on its own type only**, and never aborts. -/
theorem readU64_reads (v : ScVal) : Reads (readU64 v) fun n => v = .u64 n := by
  cases v <;> constructor <;> simp [readU64]

theorem readU32_reads (v : ScVal) : Reads (readU32 v) fun n => v = .u32 n := by
  cases v <;> constructor <;> simp [readU32]

theorem readI128_reads (v : ScVal) : Reads (readI128 v) fun n => v = .i128 n := by
  cases v <;> constructor <;> simp [readI128]

theorem readBool_reads (v : ScVal) : Reads (readBool v) fun b => v = .bool b := by
  cases v <;> constructor <;> simp [readBool]

/-- **Converting a shell never aborts**: it gives the policy whose shell it is, if there is one. -/
theorem policyConfigTryFromVal_reads (shell : PolicyShell) :
    Reads (policyConfigTryFromVal shell.scval) fun l =>
      ∃ cfg : PolicyConfig, shell = cfg.shell ∧ l = cfg.lazy := by
  obtain ⟨activeFrom, activeUntil, allowAnyRecipient, assetCaps, assets, blockedRecipients,
    dmsGraceSecs, paused, perTxCap, protocolCallsPerWindow, protocols, recipientWindowCaps,
    recipients, windowCap, windowSecs⟩ := shell
  have hreads := (readU64_reads activeFrom).bind fun activeFrom =>
    (readU64_reads activeUntil).bind fun activeUntil =>
    (readBool_reads allowAnyRecipient).bind fun allowAnyRecipient =>
    (readU64_reads dmsGraceSecs).bind fun dmsGraceSecs =>
    (readBool_reads paused).bind fun paused => (readI128_reads perTxCap).bind fun perTxCap =>
    (readU32_reads protocolCallsPerWindow).bind fun protocolCallsPerWindow =>
    (readI128_reads windowCap).bind fun windowCap =>
    (readU64_reads windowSecs).bind fun windowSecs =>
    reads_pure (PolicyConfig.lazy
      { perTxCap, windowSecs, windowCap, assets, protocols, recipients, recipientWindowCaps,
        blockedRecipients, assetCaps, allowAnyRecipient, activeFrom, activeUntil, paused,
        dmsGraceSecs, protocolCallsPerWindow })
  refine Reads.congr (show Reads (policyConfigTryFromVal _) _ from hreads) fun l => ?_
  constructor
  · rintro ⟨_, rfl, _, rfl, _, rfl, _, rfl, _, rfl, _, rfl, _, rfl, _, rfl, _, rfl, rfl⟩
    exact ⟨_, rfl, rfl⟩
  · rintro ⟨cfg, hcfg, rfl⟩
    cases hcfg
    exact ⟨_, rfl, _, rfl, _, rfl, _, rfl, _, rfl, _, rfl, _, rfl, _, rfl, _, rfl, rfl⟩

/-- A policy can be read back from its encoding. -/
theorem policyConfigTryFromVal_policyConfigScVal (cfg : PolicyConfig) :
    policyConfigTryFromVal (policyConfigScVal cfg) = .ok cfg.lazy :=
  ((policyConfigTryFromVal_reads cfg.shell).ok_iff _).mpr ⟨cfg, rfl, rfl⟩

/-- A value encodes at most one policy. -/
theorem policyConfigScVal_injective : Function.Injective policyConfigScVal := by
  intro cfg cfg' h
  have hlazy := policyConfigTryFromVal_policyConfigScVal cfg
  rw [h, policyConfigTryFromVal_policyConfigScVal, Except.ok.injEq] at hlazy
  have hforce := force_lazy cfg
  rw [← hlazy, force_lazy, Except.ok.injEq] at hforce
  exact hforce.symm

/-- What the check says of an encoding is what `validate_config` says. -/
theorem validate_policyConfigScVal {valTryFrom : ScVal → Bool} (self : Address) {cfg : PolicyConfig}
    (hval : valTryFrom (policyConfigScVal cfg) = true) :
    validatePolicyConfigScval valTryFrom self (policyConfigScVal cfg)
      = some (validateConfig self cfg) := by
  have hshape := (hasSafeStructShape_iff (policyConfigScVal cfg)).mpr ⟨cfg.shell, rfl⟩
  simp only [validatePolicyConfigScval, hshape, hval, policyConfigTryFromVal_policyConfigScVal,
    force_lazy, Bool.not_true, Bool.false_eq_true, if_false]

/-- Any other value is refused. -/
theorem validate_eq_invalidConfig {valTryFrom : ScVal → Bool} (self : Address) {v : ScVal}
    (h : ∀ cfg, v = policyConfigScVal cfg → valTryFrom v = false) :
    validatePolicyConfigScval valTryFrom self v = some (.error .invalidConfig) := by
  rw [validatePolicyConfigScval]
  split_ifs with hshape hval
  · rfl
  · rfl
  rw [Bool.not_eq_true, Bool.not_eq_false'] at hshape hval
  obtain ⟨shell, rfl⟩ := (hasSafeStructShape_iff v).mp hshape
  have hreads := policyConfigTryFromVal_reads shell
  cases hread : policyConfigTryFromVal shell.scval with
  | ok l =>
    obtain ⟨cfg, rfl, -⟩ := (hreads.ok_iff l).mp hread
    exact absurd (h cfg rfl) (by simp [hval])
  | error e =>
    cases e with
    | conversion => rfl
    | abort => exact absurd hread hreads.ne_abort

/-- **A value is accepted exactly when it encodes an accepted policy**; any other value is refused
as an invalid config, and none aborts. -/
theorem validate_scval_exact (valTryFrom : ScVal → Bool) (self : Address) (v : ScVal) :
    (validatePolicyConfigScval valTryFrom self v = some (.ok ()) ↔
      ∃ cfg : PolicyConfig, v = policyConfigScVal cfg ∧ valTryFrom v = true ∧
        validateConfig self cfg = .ok ()) ∧
    (validatePolicyConfigScval valTryFrom self v = some (.ok ()) ∨
      validatePolicyConfigScval valTryFrom self v = some (.error .invalidConfig)) := by
  by_cases h : ∀ cfg, v = policyConfigScVal cfg → valTryFrom v = false
  · have hrefused := validate_eq_invalidConfig self h
    refine ⟨⟨fun hok => ?_, fun ⟨cfg, hcfg, hval, _⟩ => ?_⟩, .inr hrefused⟩
    · cases hrefused.symm.trans hok
    · exact absurd (h cfg hcfg) (by simp [hval])
  · push Not at h
    obtain ⟨cfg, rfl, hval⟩ := h
    have hcheck := validate_policyConfigScVal self (by simpa using hval)
    rw [hcheck]
    refine ⟨⟨fun hok => ⟨cfg, rfl, by simpa using hval, Option.some.inj hok⟩, ?_⟩, ?_⟩
    · rintro ⟨cfg', hcfg', -, hok⟩
      rw [policyConfigScVal_injective hcfg', hok]
    · rw [validateConfig]
      split
      · exact .inl rfl
      · exact .inr rfl

end AgentGuard
