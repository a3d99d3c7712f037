import AgentGuard.AgentTx.Request
import AgentGuard.Machinery.LastWord

/-!
# AgentTx/Flags — what a command line says

The flag loop of `parse_request` overwrites variables as it goes.  Read at once, a command line
spells a list of settings (`Spells`), and each variable ends as the last setting that speaks of it
left it (`Settles`): flags about different things may come in any order, and of two about the same
thing the later one counts.
-/

namespace AgentGuard.AgentTx

open Machinery

/-! ## Spelling -/

/-- A setting, by a flag of the subcommand and the value after it. -/
inductive Spelled (cmd : String) : List String → Setting → Prop
  | switch {flag : String} {setting : Setting} (hvalid : flag ∈ validFlagsForSubcommand cmd)
      (hform : flagForm flag = .switch setting) : Spelled cmd [flag] setting
  | valued {flag value expected : String} {read : String → Except String Setting}
      {setting : Setting} (hvalid : flag ∈ validFlagsForSubcommand cmd)
      (hform : flagForm flag = .valued expected read) (hread : read value = .ok setting) :
      Spelled cmd [flag, value] setting

/-- A command line that spells settings, one after the other. -/
inductive Spells (cmd : String) : List String → List Setting → Prop
  | nil : Spells cmd [] []
  | cons {tokens argv : List String} {setting : Setting} {settings : List Setting}
      (h : Spelled cmd tokens setting) (hrest : Spells cmd argv settings) :
      Spells cmd (tokens ++ argv) (setting :: settings)

/-- **A spelled command line is accepted**, and its settings are applied in order. -/
theorem parseFlags_of_spells {cmd : String} {argv : List String} {settings : List Setting}
    (h : Spells cmd argv settings) :
    ∀ flags, parseFlags cmd flags argv = .ok (settings.foldl Flags.set flags) := by
  induction h with
  | nil => exact fun _ => rfl
  | cons h hrest ih =>
    intro flags
    cases h with
    | switch hvalid hform =>
      rw [List.singleton_append, parseFlags, if_neg (not_not.mpr hvalid), hform]
      exact ih _
    | valued hvalid hform hread =>
      rw [List.cons_append, List.singleton_append, parseFlags, if_neg (not_not.mpr hvalid), hform]
      dsimp only
      rw [hread]
      exact ih _

/-- **Only a spelled one is**, by induction along the loop. -/
theorem spells_of_parseFlags (cmd : String) (flags : Flags) (argv : List String) {flags' : Flags}
    (h : parseFlags cmd flags argv = .ok flags') :
    ∃ settings, Spells cmd argv settings ∧ flags' = settings.foldl Flags.set flags := by
  induction flags, argv using parseFlags.induct cmd with
  | case1 flags => exact ⟨[], .nil, (Except.ok.inj h).symm⟩
  | case2 flags flag rest hvalid => simp [parseFlags, hvalid] at h
  | case3 flags flag rest hvalid hform => simp [parseFlags, hvalid, hform] at h
  | case4 flags flag rest hvalid setting hform ih =>
    rw [parseFlags, if_neg hvalid, hform] at h
    obtain ⟨settings, hspells, rfl⟩ := ih h
    exact ⟨setting :: settings, .cons (.switch (not_not.mp hvalid) hform) hspells, rfl⟩
  | case5 flags flag hvalid expected read hform => simp [parseFlags, hvalid, hform] at h
  | case6 flags flag hvalid expected read hform value rest message hread =>
    simp [parseFlags, hvalid, hform, hread] at h
  | case7 flags flag hvalid expected read hform value rest setting hread ih =>
    rw [parseFlags, if_neg hvalid, hform] at h
    dsimp only at h
    rw [hread] at h
    obtain ⟨settings, hspells, rfl⟩ := ih h
    exact ⟨setting :: settings, .cons (.valued (not_not.mp hvalid) hform hread) hspells, rfl⟩
  | case8 flags flag rest hvalid hform => simp [parseFlags, hvalid, hform] at h

/-- **A command line is accepted when it spells settings**, which are then made in order. -/
theorem parseFlags_eq_ok_iff {cmd : String} {flags flags' : Flags} {argv : List String} :
    parseFlags cmd flags argv = .ok flags' ↔
      ∃ settings, Spells cmd argv settings ∧ flags' = settings.foldl Flags.set flags := by
  refine ⟨spells_of_parseFlags cmd flags argv, ?_⟩
  rintro ⟨settings, hspells, rfl⟩
  exact parseFlags_of_spells hspells flags

/-- A command line spells one list of settings. -/
theorem Spells.unique {cmd : String} {argv : List String} {settings : List Setting}
    (h : Spells cmd argv settings) :
    ∀ {settings' : List Setting}, Spells cmd argv settings' → settings = settings' := by
  induction h with
  | nil =>
    intro settings' h'
    generalize hargv : ([] : List String) = argv at h'
    cases h' with
    | nil => rfl
    | cons h' _ => cases h' <;> simp at hargv
  | @cons tokens argv setting settings h hrest ih =>
    intro settings' h'
    generalize hargv : tokens ++ argv = argv' at h'
    cases h' with
    | nil => cases h <;> simp at hargv
    | @cons tokens' argv' setting' settings' h' hrest' =>
      cases h with
      | switch _ hform =>
        cases h' with
        | switch _ hform' =>
          obtain ⟨rfl, rfl⟩ : _ ∧ argv = argv' := by simpa using hargv
          obtain rfl := FlagForm.switch.inj (hform.symm.trans hform')
          rw [ih hrest']
        | valued _ hform' _ =>
          obtain ⟨rfl, -⟩ : _ ∧ _ := by simpa using hargv
          cases hform.symm.trans hform'
      | valued _ hform hread =>
        cases h' with
        | switch _ hform' =>
          obtain ⟨rfl, -⟩ : _ ∧ _ := by simpa using hargv
          cases hform.symm.trans hform'
        | valued _ hform' hread' =>
          obtain ⟨rfl, rfl, rfl⟩ : _ ∧ _ ∧ argv = argv' := by simpa using hargv
          obtain ⟨-, rfl⟩ := FlagForm.valued.inj (hform.symm.trans hform')
          obtain rfl := Except.ok.inj (hread.symm.trans hread')
          rw [ih hrest']

/-! ## Settings and their flags -/

/-- The flags that spell a setting. -/
def Setting.names : Setting → List String
  | .guard _ => ["--guard"]
  | .token _ _ => ["--token", "--asset"]
  | .source _ => ["--from"]
  | .dest _ => ["--to"]
  | .amount _ => ["--amount"]
  | .inclusionFee _ => ["--inclusion-fee"]
  | .secret _ _ => ["--agent-secret", "--secret"]
  | .secretFile _ _ => ["--agent-secret", "--secret", "--agent-secret-file"]
  | .network _ => ["--network"]
  | .rpcUrl _ => ["--rpc-url"]
  | .passphrase _ => ["--network-passphrase"]
  | .rpcTimeout _ => ["--rpc-timeout"]
  | .expectBlocked => ["--expect-blocked"]
  | .json => ["--json"]

/-- A setting without a value. -/
def Setting.isSwitch : Setting → Bool
  | .expectBlocked | .json => true
  | _ => false

theorem map_eq_ok {ε α β : Type} {x : Except ε α} {f : α → β} {b : β} (h : x.map f = .ok b) :
    ∃ a, x = .ok a ∧ f a = b := by
  cases x with
  | error e => cases h
  | ok a => exact ⟨a, rfl, Except.ok.inj h⟩

/-- A timeout of `0` is refused. -/
theorem parseRpcTimeout_pos {raw : String} {secs : U64} (h : parseRpcTimeout raw = .ok secs) :
    0 < secs.val := by
  rw [parseRpcTimeout] at h
  cases hraw : parseU64 raw with
  | none => simp [hraw] at h
  | some n =>
    simp only [hraw] at h
    split_ifs at h with hpos
    exact Except.ok.inj h ▸ hpos

/-- A secret given as `-` is read as a secret file is. -/
theorem secretSetting_cases (field value : String) :
    secretSetting field value = .secretFile field value ∨
      secretSetting field value = .secret field value := by
  rw [secretSetting]
  split_ifs
  · exact .inl rfl
  · exact .inr rfl

/-- An arm of the flag loop sets what its flag is for, and no timeout of zero. -/
def ArmOk (flag : String) : FlagForm → Prop
  | .switch setting => flag ∈ setting.names ∧ setting.isSwitch = true
  | .valued _ read => ∀ value setting, read value = .ok setting →
      flag ∈ setting.names ∧ ∀ secs, setting = .rpcTimeout secs → 0 < secs.val
  | _ => True

/-- An arm that takes any value. -/
theorem armOk_text {flag expected : String} {f : String → Setting}
    (h : ∀ value, flag ∈ (f value).names ∧ ∀ secs, f value ≠ .rpcTimeout secs) :
    ArmOk flag (.valued expected fun v => .ok (f v)) := by
  intro value setting hread
  obtain rfl := Except.ok.inj hread
  exact ⟨(h value).1, fun secs hs => absurd hs ((h value).2 secs)⟩

/-- An arm that parses its value. -/
theorem armOk_parsed {α : Type} {flag expected : String} {parse : String → Except String α}
    {f : α → Setting} (h : ∀ value a, parse value = .ok a →
      flag ∈ (f a).names ∧ ∀ secs, f a = .rpcTimeout secs → 0 < secs.val) :
    ArmOk flag (.valued expected fun v => (parse v).map f) := by
  intro value setting hread
  obtain ⟨a, ha, rfl⟩ := map_eq_ok hread
  exact h value a ha

/-- Either secret flag sets the secret, or the file it is read from. -/
theorem armOk_secret {flag expected : String} (hflag : flag ∈ ["--agent-secret", "--secret"]) :
    ArmOk flag (.valued expected fun v => .ok (secretSetting flag v)) := by
  refine armOk_text fun value => ?_
  rcases secretSetting_cases flag value with hs | hs
  · rw [hs]
    exact ⟨List.mem_append_left ["--agent-secret-file"] hflag, by simp⟩
  · rw [hs]
    exact ⟨hflag, by simp⟩

/-- **Every row of the table** makes a setting of the flag it stands under. -/
theorem flagTable_ok : ∀ row ∈ flagTable, ArmOk row.1 row.2 := by
  simp only [flagTable, List.forall_mem_cons, List.not_mem_nil, false_imp_iff, implies_true,
    and_true]
  have htext {f : String → Setting} {flag expected : String} (h : ∀ value, flag ∈ (f value).names)
      (hno : ∀ value secs, f value ≠ .rpcTimeout secs) :
      ArmOk flag (.valued expected fun v => .ok (f v)) :=
    armOk_text fun value => ⟨h value, hno value⟩
  refine ⟨trivial, trivial, ?guard, ?token, ?asset, ?source, ?dest, ?amount, ?fee, ?agentSecret,
    ?secret, ?secretFile, ?network, ?rpcUrl, ?passphrase, ?timeout, ?expect, ?json⟩
  case amount => exact armOk_parsed fun _ _ _ => ⟨List.mem_singleton.mpr rfl, by simp⟩
  case fee => exact armOk_parsed fun _ _ _ => ⟨List.mem_singleton.mpr rfl, by simp⟩
  case timeout =>
    refine armOk_parsed fun value secs h => ⟨List.mem_singleton.mpr rfl, ?_⟩
    rintro _ ⟨⟩
    exact parseRpcTimeout_pos h
  case agentSecret => exact armOk_secret (by simp)
  case secret => exact armOk_secret (by simp)
  case expect => exact ⟨List.mem_singleton.mpr rfl, rfl⟩
  case json => exact ⟨List.mem_singleton.mpr rfl, rfl⟩
  all_goals exact htext (fun _ => by simp [Setting.names]) (by simp)

theorem armOk_flagForm (flag : String) : ArmOk flag (flagForm flag) := by
  rw [flagForm]
  cases hrow : flagTable.find? fun row => row.1 = flag with
  | none => trivial
  | some row =>
    obtain rfl : row.1 = flag := by simpa using List.find?_some hrow
    exact flagTable_ok row (List.mem_of_find?_eq_some hrow)

/-- **A setting comes from one of its flags**, and a timeout is positive. -/
theorem Spelled.spec {cmd : String} {tokens : List String} {setting : Setting}
    (h : Spelled cmd tokens setting) :
    (∃ flag ∈ setting.names, flag ∈ validFlagsForSubcommand cmd) ∧
      ∀ secs, setting = .rpcTimeout secs → 0 < secs.val := by
  cases h with
  | @switch flag _ hvalid hform =>
    have hok := armOk_flagForm flag
    rw [hform] at hok
    refine ⟨⟨flag, hok.1, hvalid⟩, ?_⟩
    rintro secs rfl
    cases hok.2
  | @valued flag value expected read _ hvalid hform hread =>
    have hok := armOk_flagForm flag
    rw [hform] at hok
    have hspec := hok value setting hread
    exact ⟨⟨flag, hspec.1, hvalid⟩, hspec.2⟩

/-- The same of a whole command line. -/
theorem Spells.spec {cmd : String} {argv : List String} {settings : List Setting}
    (h : Spells cmd argv settings) : ∀ s ∈ settings,
      (∃ flag ∈ s.names, flag ∈ validFlagsForSubcommand cmd) ∧
        ∀ secs, s = .rpcTimeout secs → 0 < secs.val := by
  induction h with
  | nil => simp
  | cons h _ ih => exact List.forall_mem_cons.mpr ⟨h.spec, ih⟩

/-! ## The last word -/

namespace Setting

/-- What a setting says about one flag, and nothing about the others. -/
def guard? : Setting → Option String
  | .guard value => some value
  | _ => none

def token? : Setting → Option (String × String)
  | .token field value => some (field, value)
  | _ => none

def source? : Setting → Option String
  | .source value => some value
  | _ => none

def dest? : Setting → Option String
  | .dest value => some value
  | _ => none

def amount? : Setting → Option I128
  | .amount n => some n
  | _ => none

def inclusionFee? : Setting → Option U32
  | .inclusionFee n => some n
  | _ => none

def secret? : Setting → Option String
  | .secret _ value => some value
  | _ => none

def secretFile? : Setting → Option String
  | .secretFile _ path => some path
  | _ => none

/-- The field of either kind of secret. -/
def secretField? : Setting → Option String
  | .secret field _ | .secretFile field _ => some field
  | _ => none

def network? : Setting → Option String
  | .network value => some value
  | _ => none

def rpcUrl? : Setting → Option String
  | .rpcUrl value => some value
  | _ => none

def passphrase? : Setting → Option String
  | .passphrase value => some value
  | _ => none

def rpcTimeout? : Setting → Option U64
  | .rpcTimeout secs => some secs
  | _ => none

end Setting

/-- **What a list of settings comes to**: each variable is the last word on it. -/
structure Settles (settings : List Setting) (flags : Flags) : Prop where
  guard : flags.guard = lastOf Setting.guard? settings
  token : flags.token = (lastOf Setting.token? settings).map Prod.snd
  tokenField : flags.tokenField = ((lastOf Setting.token? settings).map Prod.fst).getD ""
  source : flags.source = lastOf Setting.source? settings
  dest : flags.dest = lastOf Setting.dest? settings
  amount : flags.amount = lastOf Setting.amount? settings
  secret : flags.secret = lastOf Setting.secret? settings
  secretField : flags.secretField = (lastOf Setting.secretField? settings).getD ""
  secretFile : flags.secretFile = lastOf Setting.secretFile? settings
  rawSecretOnArgv : flags.rawSecretOnArgv = settings.any fun s => s.secret?.isSome
  network : flags.network = lastOf Setting.network? settings
  rpcUrl : flags.rpcUrl = lastOf Setting.rpcUrl? settings
  passphrase : flags.passphrase = lastOf Setting.passphrase? settings
  rpcTimeout : flags.rpcTimeout = (lastOf Setting.rpcTimeout? settings).getD defaultRpcTimeout
  expectBlocked : flags.expectBlocked = settings.any (· = .expectBlocked)
  json : flags.json = settings.any (· = .json)
  inclusionFeeOverride : flags.inclusionFeeOverride = lastOf Setting.inclusionFee? settings

/-- **The last word counts**, for every setting on its own. -/
theorem settles_foldl (settings : List Setting) :
    Settles settings (settings.foldl Flags.set {}) := by
  have hget {β : Type} (get : Flags → Option β) (sel : Setting → Option β)
      (h : ∀ flags s, get (flags.set s) = (sel s).or (get flags)) (hnone : get {} = none) :
      get (settings.foldl Flags.set {}) = lastOf sel settings := by
    rw [foldl_overwrite h, hnone, Option.or_none]
  have hgetD {β : Type} (get : Flags → β) (sel : Setting → Option β)
      (h : ∀ flags s, some (get (flags.set s)) = (sel s).or (some (get flags))) :
      get (settings.foldl Flags.set {}) = (lastOf sel settings).getD (get {}) := by
    have : some (get (settings.foldl Flags.set {})) = (lastOf sel settings).or (some (get {})) :=
      @foldl_overwrite _ _ _ _ (fun flags => some (get flags)) _ h settings {}
    cases hlast : lastOf sel settings with
    | none => simpa [hlast] using this
    | some b => simpa [hlast] using this
  have hswitch (get : Flags → Bool) (sel : Setting → Bool)
      (h : ∀ flags s, get (flags.set s) = (sel s || get flags)) (hoff : get {} = false) :
      get (settings.foldl Flags.set {}) = settings.any sel := by
    rw [foldl_switch h, hoff, Bool.or_false]
  constructor
  case token =>
    rw [← lastOf_map]
    exact hget Flags.token _ (fun _ s => by cases s <;> rfl) rfl
  case tokenField =>
    rw [← lastOf_map]
    exact hgetD Flags.tokenField _ fun _ s => by cases s <;> rfl
  case secretField => exact hgetD Flags.secretField _ fun _ s => by cases s <;> rfl
  case rpcTimeout => exact hgetD Flags.rpcTimeout _ fun _ s => by cases s <;> rfl
  case rawSecretOnArgv => exact hswitch _ _ (fun _ s => by cases s <;> rfl) rfl
  case expectBlocked => exact hswitch _ _ (fun _ s => by cases s <;> rfl) rfl
  case json => exact hswitch _ _ (fun _ s => by cases s <;> rfl) rfl
  all_goals exact hget _ _ (fun _ s => by cases s <;> rfl) rfl

/-- Settled variables are all there is to know. -/
theorem Settles.unique {settings : List Setting} {flags flags' : Flags}
    (h : Settles settings flags) (h' : Settles settings flags') : flags = flags' := by
  obtain ⟨_, _, _, _, _, _, _, _, _, _, _, _, _, _, _, _, _⟩ := h
  obtain ⟨_, _, _, _, _, _, _, _, _, _, _, _, _, _, _, _, _⟩ := h'
  cases flags
  cases flags'
  simp_all

/-- **The flag loop reads a command line as a list of settings, the last word on each variable
counting.**  It accepts exactly the command lines that spell a list of settings — flags of the
subcommand, each with a value it takes — and a command line spells at most one such list. -/
theorem parse_flags_settles (cmd : String) (argv : List String) :
    (∀ settings settings', Spells cmd argv settings → Spells cmd argv settings' →
      settings = settings') ∧
    ∀ flags, parseFlags cmd {} argv = .ok flags ↔
      ∃ settings, Spells cmd argv settings ∧ Settles settings flags := by
  refine ⟨fun _ _ h h' => h.unique h', fun flags => ?_⟩
  rw [parseFlags_eq_ok_iff]
  refine exists_congr fun settings => and_congr_right fun _ => ⟨?_, fun h => ?_⟩
  · rintro rfl
    exact settles_foldl settings
  · exact h.unique (settles_foldl settings)

/-- A recipient that is given twice is the second. -/
example : (parseFlags "transfer" {} ["--to", "G1", "--json", "--to", "G2"]).toOption.map Flags.dest
    = some (some "G2") := by decide +kernel

end AgentGuard.AgentTx
