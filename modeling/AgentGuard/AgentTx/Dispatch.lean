import AgentGuard.AgentTx.Flags

/-!
# AgentTx/Dispatch — from a command line to a command

What `main` does with a command line.  Reading it touches nothing but this machine, and what is
accepted is a well-formed request, so the checks `main` makes once more never fail
(`runCommand_checks_first`).
-/

namespace AgentGuard.AgentTx

open Machinery

/-! ## Addresses -/

/-- The id of a key, as a number. -/
def keyId (key : Bytes32) : BitVec 256 :=
  BitVec.ofNat 256 (key.toList.foldl (fun n b => 256 * n + b.toNat) 0)

/-- **The XDR library parses StrKeys**: the key of an account to the account, of a contract to the
contract. -/
structure ParsesStrKeys (crates : Crates) : Prop where
  account : ∀ key, crates.parseScAddress (accountStrkey key) = .ok (.account (keyId key))
  contract : ∀ key, crates.parseScAddress (contractStrkey key) = .ok (.contract (keyId key))

/-- The address a StrKey names. -/
inductive Names : String → Address → Prop
  | account (key : Bytes32) : Names (accountStrkey key) (.account (keyId key))
  | contract (key : Bytes32) : Names (contractStrkey key) (.contract (keyId key))

/-- A kind of key that admits an address. -/
def KeyKind.Admits (kind : KeyKind) : Address → Prop
  | .account _ => verAccount ∈ kind.versions
  | .contract _ => verContract ∈ kind.versions

theorem versions_of_ne_secret {kind : KeyKind} (hkind : kind ≠ .secret) {version : UInt8}
    (h : version ∈ kind.versions) : version = verAccount ∨ version = verContract := by
  cases kind with
  | secret => exact absurd rfl hkind
  | contract => exact .inr (List.mem_singleton.mp h)
  | account => exact .inl (List.mem_singleton.mp h)
  | recipient => simpa [KeyKind.versions] using h

section

variable {crates : Crates} {cmd : String}

theorem bind_eq_ok {ε α β : Type} {x : Except ε α} {f : α → Except ε β} {b : β}
    (h : (x >>= f) = .ok b) : ∃ a, x = .ok a ∧ f a = .ok b := by
  cases x with
  | error e => cases h
  | ok a => exact ⟨a, rfl, h⟩

/-- **An address flag accepts the StrKeys of its kind, and nothing fails after that check.** -/
theorem validateAddress_eq_ok_iff (hparse : ParsesStrKeys crates) {field value : String}
    {kind : KeyKind} (hkind : kind ≠ .secret) {address : Address} :
    validateAddress crates field kind value = .ok address ↔
      Names value address ∧ kind.Admits address := by
  constructor
  · intro h
    obtain ⟨key, hkey, h⟩ := bind_eq_ok h
    obtain ⟨version, hversion, rfl⟩ := validateKey_eq_ok_iff.mp hkey
    rcases versions_of_ne_secret hkind hversion with rfl | rfl
    · have hparsed := hparse.account key
      rw [accountStrkey] at hparsed
      rw [hparsed] at h
      obtain rfl := Except.ok.inj h
      exact ⟨.account key, hversion⟩
    · have hparsed := hparse.contract key
      rw [contractStrkey] at hparsed
      rw [hparsed] at h
      obtain rfl := Except.ok.inj h
      exact ⟨.contract key, hversion⟩
  · rintro ⟨hnames, hadmits⟩
    rw [validateAddress]
    cases hnames with
    | account key =>
      have hkey : validateKey field kind (accountStrkey key) = .ok key :=
        validateKey_eq_ok_iff.mpr ⟨verAccount, hadmits, rfl⟩
      rw [hkey, hparse.account]
      rfl
    | contract key =>
      have hkey : validateKey field kind (contractStrkey key) = .ok key :=
        validateKey_eq_ok_iff.mpr ⟨verContract, hadmits, rfl⟩
      rw [hkey, hparse.contract]
      rfl

/-! ## Accepted requests -/

/-- An accepted secret. -/
structure SecretOk (cmd : String) (secret : Option String) : Prop where
  strkey : ∀ s, secret = some s → ∃ seed : Bytes32, s = strkeyEncode verSecret seed.toList
  present : signs cmd = true → secret.isSome = true

theorem checkSecret_ok {field : String} {found secret : Option String}
    (h : checkSecret cmd field found = .ok secret) : SecretOk cmd secret := by
  cases found with
  | some s =>
    obtain ⟨seed, hseed, h⟩ := bind_eq_ok h
    obtain rfl := Except.ok.inj h
    obtain ⟨version, hversion, hs⟩ := validateKey_eq_ok_iff.mp hseed
    obtain rfl := List.mem_singleton.mp hversion
    refine ⟨?_, fun _ => rfl⟩
    rintro _ ⟨⟩
    exact ⟨seed, hs⟩
  | none =>
    rw [checkSecret] at h
    split_ifs at h with hsigns
    obtain rfl := Except.ok.inj h
    exact ⟨by simp, fun hs => absurd hs hsigns⟩

/-- **How an accepted request comes from its command line.** -/
structure Accepted (crates : Crates) (cmd : String) (argv : List String) (flags : Flags)
    (request : Request) : Prop where
  read : parseFlags cmd {} argv = .ok flags
  endpoint : resolveEndpoint flags.network flags.rpcUrl flags.passphrase = .ok request.endpoint
  guard : ∃ value, (∀ v, flags.guard = some v → value = v) ∧
    validateAddress crates "--guard" .contract value = .ok request.guard
  secret : SecretOk cmd request.secret
  spend : parseSpend crates cmd flags = .ok (request.token, request.source, request.dest)
  amount : request.amount = flags.amount
  rpcTimeout : request.rpcTimeout = flags.rpcTimeout
  expectBlocked : request.expectBlocked = flags.expectBlocked
  json : request.json = flags.json
  inclusionFeeOverride : request.inclusionFeeOverride = flags.inclusionFeeOverride

/-- A query that stays on this machine and off stdout. -/
def Query.isLocal : Query → Bool
  | .stderr _ | .readFile _ | .readStdin | .env _ | .registry => true
  | _ => false

variable {O : Type} {obs : Exchange Query.Answer → Option O}

theorem silent_readSecretFromFile (hobs : ∀ e, e.query.isLocal = true → obs e = none)
    (path : String) : (readSecretFromFile path).Silent obs fun _ => True := by
  rw [readSecretFromFile]
  split_ifs
  · exact .ask (fun _ => hobs _ rfl) fun _ => .done trivial
  · exact .ask (fun _ => hobs _ rfl) fun _ => .done trivial

theorem silent_findSecret (hobs : ∀ e, e.query.isLocal = true → obs e = none) (flags : Flags) :
    (findSecret cmd flags).Silent obs fun x => ∀ secret, x = .ok secret → SecretOk cmd secret := by
  rw [findSecret]
  cases flags.secretFile with
  | some path =>
    refine (silent_readSecretFromFile hobs path).bind fun x _ => ?_
    cases x with
    | error message => exact Session.Silent.done (by simp)
    | ok secret => exact Session.Silent.done fun _ h => checkSecret_ok h
  | none =>
    cases flags.secret with
    | some secret => exact .done fun _ h => checkSecret_ok h
    | none =>
      exact .ask (fun _ => hobs _ rfl) fun secret => .done fun _ h => checkSecret_ok h

theorem silent_resolveSecret (hobs : ∀ e, e.query.isLocal = true → obs e = none) (flags : Flags) :
    (resolveSecret cmd flags).Silent obs fun x => ∀ secret, x = .ok secret →
      SecretOk cmd secret := by
  rw [resolveSecret]
  split_ifs
  · exact .ask (fun _ => hobs _ rfl) fun _ => silent_findSecret hobs flags
  · exact silent_findSecret hobs flags

theorem silent_guardArgument (hobs : ∀ e, e.query.isLocal = true → obs e = none)
    (guardArg : Option String) : (guardArgument guardArg).Silent obs fun x =>
      ∀ value, x = .ok value → ∀ v, guardArg = some v → value = v := by
  cases guardArg with
  | some v =>
    refine .done fun value h w hw => ?_
    exact (Except.ok.inj h).symm.trans (Option.some.inj hw)
  | none => exact .ask (fun _ => hobs _ rfl) fun _ => .done (by simp)

/-- **Reading a command line** halts nowhere and asks local queries only; what it accepts comes from
the command line. -/
theorem silent_parseRequest (hobs : ∀ e, e.query.isLocal = true → obs e = none)
    (argv : List String) : (parseRequest crates cmd argv).Silent obs fun x =>
      ∀ request, x = .ok request → ∃ flags, Accepted crates cmd argv flags request := by
  rw [parseRequest]
  cases hflags : parseFlags cmd {} argv with
  | error message => exact .done (by simp)
  | ok flags =>
    dsimp only
    cases hendpoint : resolveEndpoint flags.network flags.rpcUrl flags.passphrase with
    | error message => exact .done (by simp)
    | ok endpoint =>
      refine (silent_guardArgument hobs flags.guard).bind fun x hx => ?_
      cases hguard : x.bind (validateAddress crates "--guard" .contract) with
      | error message => exact .done (by simp)
      | ok guard =>
        obtain ⟨value, rfl, hvalue⟩ := bind_eq_ok hguard
        refine (silent_resolveSecret hobs flags).bind fun y hy => ?_
        cases y with
        | error message => exact .done (by simp)
        | ok secret =>
          refine Session.Silent.done fun request hrequest => ⟨flags, ?_⟩
          obtain ⟨⟨token, source, dest⟩, hspend, hrequest⟩ := bind_eq_ok hrequest
          obtain rfl := Except.ok.inj hrequest
          exact ⟨hflags, hendpoint, ⟨value, hx value rfl, hvalue⟩, hy secret rfl, hspend, rfl, rfl,
            rfl, rfl, rfl⟩

/-! ## Well-formed requests -/

/-- **A well-formed request** of a subcommand: it has what the subcommand works on and nothing of
what others do. -/
structure Request.WellFormed (cmd : String) (request : Request) : Prop where
  guard : ∃ id, request.guard = .contract id
  token : ∀ token, request.token = some token → ∃ id, token = .contract id
  token_isSome : request.token.isSome ↔ spends cmd = true
  source : request.source.isSome ↔ cmd = "transfer-from"
  dest : request.dest.isSome ↔ spends cmd = true
  amount : request.amount.isSome ↔ spends cmd = true
  secret : SecretOk cmd request.secret
  rpcTimeout : 0 < request.rpcTimeout.val
  expectBlocked : request.expectBlocked = true → cmd ∈ ["preflight", "transfer", "transfer-from"]
  inclusionFee : request.inclusionFeeOverride.isSome →
    cmd ∈ ["preflight", "transfer", "transfer-from", "heartbeat"]

theorem requireFlag_eq_ok {α : Type} {message : String} {x : Option α} {a : α}
    (h : requireFlag message x = .ok a) : x = some a := by
  cases x with
  | none => cases h
  | some b => exact congrArg _ (Except.ok.inj h)

theorem parseSource_ok (hparse : ParsesStrKeys crates) {flags : Flags} {source : Option Address}
    (h : parseSource crates cmd flags = .ok source) :
    (cmd = "transfer-from" ∧ ∃ value address, flags.source = some value ∧ Names value address ∧
        source = some address) ∨ (cmd ≠ "transfer-from" ∧ source = none) := by
  rw [parseSource] at h
  split_ifs at h with hcmd hsome
  · obtain ⟨value, hvalue, h⟩ := bind_eq_ok h
    obtain ⟨address, haddress, h⟩ := bind_eq_ok h
    exact .inl ⟨hcmd, value, address, requireFlag_eq_ok hvalue,
      ((validateAddress_eq_ok_iff hparse (by simp)).mp haddress).1, (Except.ok.inj h).symm⟩
  · exact .inr ⟨hcmd, (Except.ok.inj h).symm⟩

/-- **What a spend is made of**: the flags that were given, each naming the address it parsed to. -/
structure SpendOk (crates : Crates) (cmd : String) (flags : Flags)
    (token source dest : Option Address) : Prop where
  token : ∃ value id, flags.token = some value ∧ Names value (.contract id) ∧
    token = some (.contract id)
  source : parseSource crates cmd flags = .ok source
  dest : ∃ value address, flags.dest = some value ∧ Names value address ∧ dest = some address
  amount : flags.amount.isSome = true

theorem parseSpend_ok (hparse : ParsesStrKeys crates) {flags : Flags}
    {token source dest : Option Address}
    (h : parseSpend crates cmd flags = .ok (token, source, dest)) :
    (spends cmd = true ∧ SpendOk crates cmd flags token source dest) ∨
      (spends cmd = false ∧ token = none ∧ source = none ∧ dest = none) := by
  rw [parseSpend] at h
  split_ifs at h with hspends
  · obtain ⟨tokenValue, htokenValue, h⟩ := bind_eq_ok h
    obtain ⟨tokenAddress, htoken, h⟩ := bind_eq_ok h
    obtain ⟨source', hsource, h⟩ := bind_eq_ok h
    obtain ⟨destValue, hdestValue, h⟩ := bind_eq_ok h
    obtain ⟨destAddress, hdest, h⟩ := bind_eq_ok h
    obtain ⟨amount, hamount, h⟩ := bind_eq_ok h
    have hparts := Except.ok.inj h
    simp only [Prod.mk.injEq] at hparts
    obtain ⟨rfl, rfl, rfl⟩ := hparts
    obtain ⟨hnamesToken, hadmits⟩ := (validateAddress_eq_ok_iff hparse (by simp)).mp htoken
    have hcontract : ∃ id, tokenAddress = .contract id := by
      cases tokenAddress with
      | account id => exact absurd (List.mem_singleton.mp hadmits) (by decide)
      | contract id => exact ⟨id, rfl⟩
    obtain ⟨id, rfl⟩ := hcontract
    refine .inl ⟨hspends, ⟨tokenValue, id, requireFlag_eq_ok htokenValue, hnamesToken, rfl⟩,
      hsource, ⟨destValue, destAddress, requireFlag_eq_ok hdestValue,
        ((validateAddress_eq_ok_iff hparse (by simp)).mp hdest).1, rfl⟩, ?_⟩
    rw [requireFlag_eq_ok hamount]
    rfl
  · have hparts := Except.ok.inj h
    simp only [Prod.mk.injEq] at hparts
    exact .inr ⟨by simpa using hspends, hparts.1.symm, hparts.2.1.symm, hparts.2.2.symm⟩

/-! ### What the flags of a subcommand exclude -/

theorem spends_of_amount (h : "--amount" ∈ validFlagsForSubcommand cmd) : spends cmd = true := by
  rw [validFlagsForSubcommand] at h
  split_ifs at h with h₁ h₂ h₃ h₄ h₅ h₆
  · simp [spends, h₁]
  · simp [spends, h₂]
  · simp [spends, h₃]
  · exact absurd h (by decide)
  · exact absurd h (by decide)
  · simp [spends, h₆]
  · exact absurd h List.not_mem_nil

theorem mem_of_expectBlocked (h : "--expect-blocked" ∈ validFlagsForSubcommand cmd) :
    cmd ∈ ["preflight", "transfer", "transfer-from"] := by
  rw [validFlagsForSubcommand] at h
  split_ifs at h with h₁ h₂ h₃
  · simp [h₁]
  · simp [h₂]
  · simp [h₃]
  all_goals exact absurd h (by decide)

theorem mem_of_inclusionFee (h : "--inclusion-fee" ∈ validFlagsForSubcommand cmd) :
    cmd ∈ ["preflight", "transfer", "transfer-from", "heartbeat"] := by
  rw [validFlagsForSubcommand] at h
  split_ifs at h with h₁ h₂ h₃ h₄
  · simp [h₁]
  · simp [h₂]
  · simp [h₃]
  · simp [h₄]
  all_goals exact absurd h (by decide)

/-- A variable that is set was set by a flag of the subcommand. -/
theorem mem_validFlags_of_lastOf {β : Type} {argv : List String} {settings : List Setting}
    (h : Spells cmd argv settings) {sel : Setting → Option β} {flag : String}
    (hsel : ∀ s b, sel s = some b → s.names = [flag]) (hsome : (lastOf sel settings).isSome) :
    flag ∈ validFlagsForSubcommand cmd := by
  obtain ⟨b, hb⟩ := Option.isSome_iff_exists.mp hsome
  obtain ⟨s, hs, hsb⟩ := mem_of_lastOf hb
  obtain ⟨⟨flag', hflag', hvalid⟩, -⟩ := h.spec s hs
  rw [hsel s b hsb, List.mem_singleton] at hflag'
  exact hflag' ▸ hvalid

/-- **What is accepted is well formed.** -/
theorem Accepted.wellFormed (hparse : ParsesStrKeys crates) {argv : List String} {flags : Flags}
    {request : Request} (h : Accepted crates cmd argv flags request) : request.WellFormed cmd := by
  obtain ⟨settings, hspells, rfl⟩ := parseFlags_eq_ok_iff.mp h.read
  have hsettles := settles_foldl settings
  have hguard : ∃ id, request.guard = .contract id := by
    obtain ⟨value, -, hvalue⟩ := h.guard
    obtain ⟨-, hadmits⟩ := (validateAddress_eq_ok_iff hparse (by simp)).mp hvalue
    cases hg : request.guard with
    | account id => exact absurd (List.mem_singleton.mp (hg ▸ hadmits)) (by decide)
    | contract id => exact ⟨id, rfl⟩
  have htimeout : 0 < request.rpcTimeout.val := by
    rw [h.rpcTimeout, hsettles.rpcTimeout]
    cases hlast : lastOf Setting.rpcTimeout? settings with
    | none => decide
    | some secs =>
      obtain ⟨s, hs, hsecs⟩ := mem_of_lastOf hlast
      cases s <;> simp only [Setting.rpcTimeout?, reduceCtorEq] at hsecs
      exact (hspells.spec _ hs).2 secs (by rw [Option.some.inj hsecs])
  have hamount : request.amount.isSome → spends cmd = true := fun hsome => by
    rw [h.amount, hsettles.amount] at hsome
    refine spends_of_amount (mem_validFlags_of_lastOf hspells (fun s b hs => ?_) hsome)
    cases s <;> first | rfl | cases hs
  have hblocked : request.expectBlocked = true →
      cmd ∈ ["preflight", "transfer", "transfer-from"] := fun htrue => by
    rw [h.expectBlocked, hsettles.expectBlocked, List.any_eq_true] at htrue
    obtain ⟨s, hs, hs'⟩ := htrue
    obtain rfl := of_decide_eq_true hs'
    obtain ⟨⟨flag, hflag, hvalid⟩, -⟩ := hspells.spec _ hs
    exact mem_of_expectBlocked (List.mem_singleton.mp hflag ▸ hvalid)
  have hfee : request.inclusionFeeOverride.isSome →
      cmd ∈ ["preflight", "transfer", "transfer-from", "heartbeat"] := fun hsome => by
    rw [h.inclusionFeeOverride, hsettles.inclusionFeeOverride] at hsome
    refine mem_of_inclusionFee (mem_validFlags_of_lastOf hspells (fun s b hs => ?_) hsome)
    cases s <;> first | rfl | cases hs
  rcases parseSpend_ok hparse h.spend with ⟨hspends, hok⟩ | ⟨hspends, htoken, hsource, hdest⟩
  · obtain ⟨tokenValue, id, -, -, htoken⟩ := hok.token
    obtain ⟨destValue, address, -, -, hdest⟩ := hok.dest
    refine ⟨hguard, ?_, by simp [htoken, hspends], ?_, by simp [hdest, hspends],
      ⟨hamount, fun _ => h.amount ▸ hok.amount⟩, h.secret, htimeout, hblocked, hfee⟩
    · intro token ht
      exact ⟨id, Option.some.inj (ht.symm.trans htoken)⟩
    · rcases parseSource_ok hparse hok.source with ⟨hcmd, _, _, -, -, hs⟩ | ⟨hcmd, hs⟩
      · simp [hs, hcmd]
      · simp [hs, hcmd]
  · have hcmd : cmd ≠ "transfer-from" := by
      rintro rfl
      exact absurd hspends (by decide)
    refine ⟨hguard, by simp [htoken], by simp [htoken, hspends], by simp [hsource, hcmd],
      by simp [hdest, hspends], ⟨hamount, ?_⟩, h.secret, htimeout, hblocked, hfee⟩
    simp [hspends]

/-! ## Commands -/

/-- What a subcommand comes to. -/
inductive Command
  | status
  | policy
  | check (asset dest : Address) (amount : I128)
  | preflight (call : Call)
  | submit (call : Call)

def Command.process (crates : Crates) (request : Request) : Command → Process Unit
  | .status => orExit (printStatus crates request.rpc request.guard)
  | .policy => orExit (cmdPolicy crates request.rpc request.guard request.reporter)
  | .check asset dest amount =>
    cmdCheck crates request.rpc request.guard asset dest amount request.reporter
  | .preflight call => preflightToExit crates call request.args
  | .submit call => runToExit crates call request.args

/-- **The command a request asks for**, by its subcommand. -/
inductive Request.Asks (request : Request) : String → Command → Prop
  | status : request.Asks "status" .status
  | policy : request.Asks "policy" .policy
  | check {token dest : Address} {amount : I128} (htoken : request.token = some token)
      (hdest : request.dest = some dest) (hamount : request.amount = some amount) :
      request.Asks "check" (.check token dest amount)
  | preflight {token dest : Address} {amount : I128} (htoken : request.token = some token)
      (hdest : request.dest = some dest) (hamount : request.amount = some amount) :
      request.Asks "preflight" (.preflight (.transfer token dest amount))
  | transfer {token dest : Address} {amount : I128} (htoken : request.token = some token)
      (hdest : request.dest = some dest) (hamount : request.amount = some amount) :
      request.Asks "transfer" (.submit (.transfer token dest amount))
  | transferFrom {token source dest : Address} {amount : I128}
      (htoken : request.token = some token) (hsource : request.source = some source)
      (hdest : request.dest = some dest) (hamount : request.amount = some amount) :
      request.Asks "transfer-from" (.submit (.transferFrom token source dest amount))
  | heartbeat : request.Asks "heartbeat" (.submit .heartbeat)

/-- Token, recipient and amount are there when they are asked for. -/
theorem Request.WellFormed.spendTarget_eq {request : Request} (h : request.WellFormed cmd)
    (hspends : spends cmd = true) : ∃ token dest amount, request.token = some token ∧
      request.dest = some dest ∧ request.amount = some amount ∧
        spendTarget cmd request = .done (token, dest, amount) := by
  obtain ⟨token, htoken⟩ := Option.isSome_iff_exists.mp (h.token_isSome.mpr hspends)
  obtain ⟨dest, hdest⟩ := Option.isSome_iff_exists.mp (h.dest.mpr hspends)
  obtain ⟨amount, hamount⟩ := Option.isSome_iff_exists.mp (h.amount.mpr hspends)
  refine ⟨token, dest, amount, htoken, hdest, hamount, ?_⟩
  rw [spendTarget, htoken, hdest, hamount]
  rfl

/-- **A well-formed request gets its command**: what `main` looks for once more is there. -/
theorem Request.WellFormed.dispatch_eq {request : Request} (h : request.WellFormed cmd)
    (hcmd : cmd ∈ subcommands) : ∃ command, request.Asks cmd command ∧
      dispatch crates cmd request = command.process crates request := by
  simp only [subcommands, List.mem_cons, List.not_mem_nil, or_false] at hcmd
  rcases hcmd with rfl | rfl | rfl | rfl | rfl | rfl | rfl
  · obtain ⟨token, dest, amount, htoken, hdest, hamount, heq⟩ := h.spendTarget_eq (by decide)
    refine ⟨_, .preflight htoken hdest hamount, ?_⟩
    simp only [dispatch, heq, String.reduceEq, if_false, if_true]
    rfl
  · obtain ⟨token, dest, amount, htoken, hdest, hamount, heq⟩ := h.spendTarget_eq (by decide)
    refine ⟨_, .transfer htoken hdest hamount, ?_⟩
    simp only [dispatch, heq, String.reduceEq, if_false, if_true]
    rfl
  · obtain ⟨token, dest, amount, htoken, hdest, hamount, -⟩ := h.spendTarget_eq (by decide)
    obtain ⟨source, hsource⟩ := Option.isSome_iff_exists.mp (h.source.mpr rfl)
    refine ⟨_, .transferFrom htoken hsource hdest hamount, ?_⟩
    simp only [dispatch, htoken, hsource, hdest, hamount, String.reduceEq, if_false, if_true]
    rfl
  · exact ⟨_, .heartbeat, by simp only [dispatch, String.reduceEq, if_false, if_true]; rfl⟩
  · exact ⟨_, .status, by simp only [dispatch, if_true]; rfl⟩
  · exact ⟨_, .policy, by simp only [dispatch, String.reduceEq, if_false, if_true]; rfl⟩
  · obtain ⟨token, dest, amount, htoken, hdest, hamount, heq⟩ := h.spendTarget_eq (by decide)
    refine ⟨_, .check htoken hdest hamount, ?_⟩
    simp only [dispatch, heq, String.reduceEq, if_false, if_true]
    rfl

/-! ## Before the network -/

/-- The requests an observer of the network hears. -/
def heard : Exchange Query.Answer → Option Unit
  | ⟨.http .., _⟩ => some ()
  | _ => none

/-- No request was made. -/
def Offline (t : Log) : Prop := t.filterMap heard = []

instance (t : Log) : Decidable (Offline t) := inferInstanceAs (Decidable (_ = _))

theorem heard_of_isLocal (e : Exchange Query.Answer) (h : e.query.isLocal = true) :
    heard e = none := by
  obtain ⟨q, x⟩ := e
  cases q <;> first | rfl | cases h

theorem silent_announce (request : Request) :
    (announce cmd request).Silent heard fun _ => True := by
  have hline : (if cmd = "preflight" then request.reporter.line "send=no (preflight only)"
      else pure () : Process Unit).Silent heard fun _ => True := by
    rw [Reporter.line]
    split_ifs
    · exact .ask (fun _ => rfl) fun _ => .done trivial
    · exact .ask (fun _ => rfl) fun _ => .done trivial
    · exact .done trivial
  rw [announce]
  cases request.notice with
  | some notice => exact .ask (fun _ => rfl) fun _ => hline
  | none => exact hline

/-- **How a command line is taken.**  It is refused with an error message, before any request, or
it is accepted, and then the command of a well-formed request runs. -/
inductive Taken (crates : Crates) (cmd : String) (rest : List String) :
    Log → Except Stop Unit → Prop
  | refused {t : Log} (h : Offline t) : Taken crates cmd rest t (.error (.exit 1))
  | accepted {flags : Flags} {request : Request} {command : Command} {t t' : Log}
      {r : Except Stop Unit} (h : Offline t) (haccepted : Accepted crates cmd rest flags request)
      (hwf : request.WellFormed cmd) (hasks : request.Asks cmd command)
      (hruns : (command.process crates request).Runs t' r) : Taken crates cmd rest (t ++ t') r

theorem runs_exitWith {message : String} {t : Log} {r : Except Stop Unit}
    (h : (exitWith message : Process Unit).Runs t r) : Offline t ∧ r = .error (.exit 1) := by
  obtain ⟨x, t', rfl, hend⟩ := Session.runs_ask_iff.mp h
  obtain ⟨rfl, rfl⟩ := Session.runs_halt_iff.mp hend
  exact ⟨rfl, rfl⟩

/-- A command line is refused or accepted. -/
theorem taken_of_runs (hparse : ParsesStrKeys crates) {rest : List String} {t : Log}
    {r : Except Stop Unit} (h : (runCommand crates cmd rest).Runs t r) :
    Taken crates cmd rest t r := by
  rw [runCommand] at h
  by_cases hcmd : cmd ∉ subcommands
  · rw [if_pos hcmd] at h
    obtain ⟨hoffline, rfl⟩ := runs_exitWith h
    exact .refused hoffline
  · rw [if_neg hcmd] at h
    rcases Session.runs_bind_iff.mp h with ⟨stop, hparsed, -⟩ | ⟨x, t₁, t₂, rfl, hparsed, h⟩
    · obtain ⟨-, a, ha, -⟩ := silent_parseRequest heard_of_isLocal rest _ _ hparsed
      cases ha
    · obtain ⟨hoffline, _, hx, haccepted⟩ := silent_parseRequest heard_of_isLocal rest _ _ hparsed
      obtain rfl := Except.ok.inj hx
      cases x with
      | error message =>
        obtain ⟨hoffline', rfl⟩ := runs_exitWith h
        refine .refused ?_
        rw [Offline, List.filterMap_append, hoffline, hoffline', List.append_nil]
      | ok request =>
        obtain ⟨flags, haccepted⟩ := haccepted request rfl
        have hwf := haccepted.wellFormed hparse
        obtain ⟨command, hasks, heq⟩ : ∃ command, request.Asks cmd command ∧
            dispatch crates cmd request = command.process crates request :=
          hwf.dispatch_eq (not_not.mp hcmd)
        rcases Session.runs_bind_iff.mp h with
          ⟨stop, hannounced, -⟩ | ⟨⟨⟩, t₃, t₄, rfl, hannounced, h⟩
        · obtain ⟨-, a, ha, -⟩ := silent_announce request _ _ hannounced
          cases ha
        · rw [heq] at h
          rw [← List.append_assoc]
          refine .accepted ?_ haccepted hwf hasks h
          rw [Offline, List.filterMap_append, hoffline, (silent_announce request _ _ hannounced).1,
            List.append_nil]

end

namespace Sample

/-- The libraries of the sample, with an address parser that reads StrKeys. -/
def parsing : Crates :=
  { crates with
    parseScAddress := fun value =>
      match decodeStrkey value with
      | .error message => .error message
      | .ok (version, key) =>
        if version = verAccount then .ok (.account (keyId key))
        else if version = verContract then .ok (.contract (keyId key))
        else .error "not an address" }

theorem parsing_parsesStrKeys : ParsesStrKeys parsing where
  account key := by
    have hkey : decodeStrkey (accountStrkey key) = .ok (verAccount, key) :=
      decodeStrkey_eq_ok_iff.mpr rfl
    simp only [parsing, hkey, if_true]
  contract key := by
    have hkey : decodeStrkey (contractStrkey key) = .ok (verContract, key) :=
      decodeStrkey_eq_ok_iff.mpr rfl
    simp only [parsing, hkey, if_neg (show verContract ≠ verAccount by decide), if_true]

/-- The flags of a transfer. -/
def transferFlags : List String :=
  ["--guard", contractStrkey (Vector.replicate 32 1), "--token",
    contractStrkey (Vector.replicate 32 2), "--to", accountStrkey (Vector.replicate 32 3),
    "--amount", "5", "--secret", secret, "--inclusion-fee", "100"]

end Sample

end AgentGuard.AgentTx
