import AgentGuard.AgentTx.Footprint
import AgentGuard.AgentTx.Network
import AgentGuard.AgentTx.Report
import AgentGuard.AgentTx.StrKey
import AgentGuard.Machinery.Roster

/-!
# AgentTx/Registry — the guard registry of the CLI

`agent-tx guards` edits a JSON file of guards and a default alias, and `resolve_guard` reads it when
a command is given no `--guard`.  What a command can do to the file is said once (`Edit`, in
`runGuards_effect`); the registry is a roster keyed by alias, so every run of commands leaves one
whose default resolves.
-/

namespace AgentGuard.AgentTx

open Machinery

/-! ## The file -/

structure GuardEntry where
  aliasName : String
  address : String
  admin : String
  addedAt : U64
deriving DecidableEq

structure Registry where
  guards : List GuardEntry
  default : Option String
deriving DecidableEq

/-- The file at `registry_path()`: absent, or what was saved to it last. -/
abbrev RegistryFile := Option Registry

def loadRegistry (file : RegistryFile) : Registry := file.getD ⟨[], none⟩

def saveRegistry (reg : Registry) : RegistryFile := some reg

/-! ## Arguments -/

/-- The arguments of a command that are not read yet. -/
structure Cli where
  cmd : String
  rest : List String

def missingValue (flag expected : String) : String :=
  flag ++ " requires a value (expected " ++ expected ++ ")"

def Cli.positionalExpected (cli : Cli) (argName expected : String) :
    Except String (String × Cli) :=
  match cli.rest with
  | token :: rest => .ok (token, { cli with rest })
  | [] => .error ("missing <" ++ argName ++ ">: \x60" ++ cli.cmd ++ "\x60 requires " ++ expected)

/-- `Cli::unknown`, for a command without flags of its own. -/
def Cli.unknown (cli : Cli) (flag : String) : String :=
  "unknown argument for \x60" ++ cli.cmd ++ "\x60: " ++ flag ++ " (see \x60agent-tx --help\x60 or "
    ++ "\x60agent-tx " ++ cli.cmd ++ " --help\x60)"

def isHelp (token : String) : Bool := token = "--help" || token = "-h"

/-- `str::parse::<u64>`: decimal digits, after an optional `+`. -/
def parseU64 (raw : String) : Option U64 :=
  let digits := match raw.toList with
    | '+' :: cs => cs
    | cs => cs
  if digits.isEmpty || !digits.all Char.isDigit then none
  else BoundedInt.ofInt? (digits.foldl (fun n c => 10 * n + (c.toNat - '0'.toNat)) 0 : ℕ)

/-- Whole seconds. -/
def parseRpcTimeout (raw : String) : Except String U64 :=
  let invalid := "invalid --rpc-timeout '" ++ raw
    ++ "': expected a whole number of seconds greater than 0"
  match parseU64 raw with
  | some secs => if 0 < secs.val then .ok secs else .error invalid
  | none => .error invalid

def defaultRpcTimeout : U64 := 30

/-! ## `guards add` -/

/-- The trailing arguments of `guards add`. -/
structure AddFlags where
  network : Option String
  rpcUrl : Option String
  passphrase : Option String
  rpcTimeout : Option U64
  positionals : List String

/-- The flag loop of `cmd_guards_add`; `none` when it met a request for help. -/
def addFlags (cli : Cli) (flags : AddFlags) : List String → Except String (Option AddFlags)
  | [] => .ok (some flags)
  | token :: rest =>
    if token = "--rpc-timeout" then
      match rest with
      | [] => .error (missingValue "--rpc-timeout" "whole seconds e.g. 30")
      | value :: rest =>
        match parseRpcTimeout value with
        | .error message => .error message
        | .ok timeout => addFlags cli { flags with rpcTimeout := some timeout } rest
    else if isHelp token then .ok none
    else if token = "--network" then
      match rest with
      | [] => .error (missingValue "--network" "testnet | futurenet | mainnet")
      | value :: rest => addFlags cli { flags with network := some value } rest
    else if token = "--rpc-url" then
      match rest with
      | [] => .error (missingValue "--rpc-url" "endpoint URL e.g. https://...")
      | value :: rest => addFlags cli { flags with rpcUrl := some value } rest
    else if token = "--network-passphrase" then
      match rest with
      | [] => .error (missingValue "--network-passphrase" "passphrase string")
      | value :: rest => addFlags cli { flags with passphrase := some value } rest
    else if "--".toList.isPrefixOf token.toList then .error (cli.unknown token)
    else addFlags cli { flags with positionals := flags.positionals ++ [token] } rest

/-- What `guards add` asks for, before it looks at the network or the file. -/
structure AddRequest where
  aliasName : String
  address : String
  admin : String
  endpoint : Endpoint
  rpcTimeout : U64

/-- The endpoint of the trailing arguments: by flags, or as a positional URL and passphrase. -/
def AddFlags.endpoint (flags : AddFlags) : Except String Endpoint :=
  if 2 < flags.positionals.length then
    .error ("unexpected arguments after \x60guards add <alias> <address> <admin>\x60: "
      ++ " ".intercalate (flags.positionals.drop 2))
  else if flags.positionals.head?.isSome && flags.rpcUrl.isSome then
    .error ("conflicting endpoint: \x60guards add\x60 was given both a positional RPC URL and "
      ++ "--rpc-url")
  else
    resolveEndpoint flags.network (flags.rpcUrl.or flags.positionals.head?)
      (flags.passphrase.or flags.positionals[1]?)

/-- The first half of `cmd_guards_add`, up to the endpoint; `none` when it printed the help. -/
def addRequest (cli : Cli) : Except String (Option AddRequest) := do
  let (aliasName, cli) ← cli.positionalExpected "alias"
    "an alias string (see \x60agent-tx guards add --help\x60)"
  if isHelp aliasName then return none
  let (address, cli) ← cli.positionalExpected "address" "a guard contract address (C...)"
  if isHelp address then return none
  let (admin, cli) ← cli.positionalExpected "admin" "an admin account address (G...)"
  if isHelp admin then return none
  let _ ← validateKey "guards add address" .contract address
  let _ ← validateKey "guards add admin" .account admin
  match ← addFlags cli ⟨none, none, none, none, []⟩ cli.rest with
  | none => return none
  | some flags =>
    let endpoint ← flags.endpoint
    return some ⟨aliasName, address, admin, endpoint, flags.rpcTimeout.getD defaultRpcTimeout⟩

/-- How a command ends when it does not succeed. -/
inductive Halt
  /-- `exit_with`. -/
  | message (text : String)
  /-- `rpc_or_exit`. -/
  | rpc
deriving DecidableEq

/-- `Rpc::new`: where requests go, and how long they may take. -/
structure RpcClient where
  url : String
  timeout : U64

/-- What a command finds outside the file: the XDR library's address parser, the RPC endpoint's
answer to a simulation (`none` when it fails), the text of a JSON value, and the clock. -/
structure Outside where
  parseScAddress : String → Except String Address
  simulate : RpcClient → LedgerFootprint → Option Json
  render : Json → String
  nowTs : U64

/-- The transaction that is simulated varies with its footprint only. -/
def verifyGuard (out : Outside) (rpc : RpcClient) (guardAddr : String) : Except Halt Unit :=
  match out.parseScAddress guardAddr with
  | .error e => .error (.message ("invalid guard address: " ++ e))
  | .ok guard =>
    match out.simulate rpc (guardFootprint guard .readOnly) with
    | none => .error .rpc
    | some sim =>
      match simulationErrorMessage out.render sim with
      | some message => .error (.message ("guard verification failed: " ++ message))
      | none => .ok ()

/-- Add an entry at the end, as the default when there is none. -/
def Registry.push (reg : Registry) (entry : GuardEntry) : Registry :=
  { guards := reg.guards ++ [entry]
    default := if reg.default.isNone then some entry.aliasName else reg.default }

def cmdGuardsAdd (out : Outside) (cli : Cli) (file : RegistryFile) :
    Except Halt Unit × RegistryFile :=
  match addRequest cli with
  | .error message => (.error (.message message), file)
  | .ok none => (.ok (), file)
  | .ok (some request) =>
    match verifyGuard out ⟨request.endpoint.rpcUrl, request.rpcTimeout⟩ request.address with
    | .error halt => (.error halt, file)
    | .ok () =>
      let reg := loadRegistry file
      if reg.guards.any fun g => g.aliasName = request.aliasName then
        (.error (.message ("alias '" ++ request.aliasName ++ "' already exists")), file)
      else if reg.guards.any fun g => g.address = request.address then
        (.error (.message ("address '" ++ request.address
          ++ "' already registered under another alias")), file)
      else
        (.ok (), saveRegistry
          (reg.push ⟨request.aliasName, request.address, request.admin, out.nowTs⟩))

/-! ## The other commands -/

def cmdGuardsRemove (cli : Cli) (file : RegistryFile) : Except Halt Unit × RegistryFile :=
  match cli.positionalExpected "alias" "an alias string (see \x60agent-tx guards --help\x60)" with
  | .error message => (.error (.message message), file)
  | .ok (aliasName, _) =>
    if isHelp aliasName then (.ok (), file)
    else
      let reg := loadRegistry file
      match reg.guards.findIdx? fun g => g.aliasName = aliasName with
      | none => (.error (.message "alias not found"), file)
      | some idx =>
        let guards := reg.guards.eraseIdx idx
        (.ok (), saveRegistry
          { guards
            default := if reg.default = some aliasName then guards.head?.map GuardEntry.aliasName
              else reg.default })

def cmdGuardsSetDefault (cli : Cli) (file : RegistryFile) : Except Halt Unit × RegistryFile :=
  match cli.positionalExpected "alias" "an alias string (see \x60agent-tx guards --help\x60)" with
  | .error message => (.error (.message message), file)
  | .ok (aliasName, _) =>
    if isHelp aliasName then (.ok (), file)
    else
      let reg := loadRegistry file
      if reg.guards.any fun g => g.aliasName = aliasName then
        (.ok (), saveRegistry { reg with default := some aliasName })
      else (.error (.message "alias not found"), file)

/-- The subcommands; listing only prints. -/
def guardsSubcommand (out : Outside) (subcommand : String) (cli : Cli) (file : RegistryFile) :
    Except Halt Unit × RegistryFile :=
  if subcommand = "add" then cmdGuardsAdd out cli file
  else if subcommand = "list" then (.ok (), file)
  else if subcommand = "remove" then cmdGuardsRemove cli file
  else if subcommand = "set-default" then cmdGuardsSetDefault cli file
  else
    (.error (.message ("unknown guards subcommand: " ++ subcommand ++ " (expected add, list, "
      ++ "remove or set-default; see \x60agent-tx guards --help\x60)")), file)

/-- What `run_guards` answers with a help text in the first two places. -/
def asksHelp (token : String) : Bool := isHelp token || token = "help"

/-- `agent-tx guards …`. -/
def runGuards (out : Outside) (argv : List String) (file : RegistryFile) :
    Except Halt Unit × RegistryFile :=
  if argv.any fun arg => arg = "--json" then
    (.error (.message ("\x60--json\x60 is not supported for \x60guards\x60 subcommands: they edit "
      ++ "the local registry and produce no run verdict (see tools/agent-tx/README.md)")), file)
  else if argv.head?.all asksHelp then (.ok (), file)
  else if argv[1]?.any asksHelp then (.ok (), file)
  else
    match (Cli.mk "guards" argv).positionalExpected "subcommand"
        "a subcommand: add | list | remove | set-default (see \x60agent-tx guards --help\x60)" with
    | .error message => (.error (.message message), file)
    | .ok (subcommand, cli) => guardsSubcommand out subcommand cli file

/-- The guard a command works on: the one it was given, or the registered default. -/
def resolveGuard (guardArg : Option String) (file : RegistryFile) : Except String String :=
  match guardArg with
  | some g => .ok g
  | none =>
    let reg := loadRegistry file
    match reg.default.bind fun name => reg.guards.find? fun g => g.aliasName = name with
    | some g => .ok g.address
    | none =>
      if reg.guards.isEmpty then
        .error ("missing --guard (expected contract ID 'C...'): no guard specified and no guards "
          ++ "registered. Use \x60agent-tx guards add <alias> <address> <admin>\x60 to register "
          ++ "one, or pass --guard <C...>")
      else
        .error ("missing --guard (expected contract ID 'C...'): no guard specified and no default "
          ++ "set. Use --guard <C...> or choose from registered guards:\n"
          ++ "\n".intercalate (reg.guards.map fun g => "  " ++ g.aliasName ++ " -> " ++ g.address))

/-! ## What a command does -/

/-- The registry as a roster of guards under their aliases. -/
def Registry.roster (reg : Registry) : Roster GuardEntry String := ⟨reg.guards, reg.default⟩

/-- **Everything a command can do to a registry.** -/
inductive Edit (reg : Registry) : Registry → Prop
  | add (entry : GuardEntry) (halias : entry.aliasName ∉ reg.guards.map GuardEntry.aliasName)
      (haddress : entry.address ∉ reg.guards.map GuardEntry.address) :
      Edit reg (reg.push entry)
  | remove {reg' : Registry} (name : String)
      (h : reg'.roster = reg.roster.remove GuardEntry.aliasName name) : Edit reg reg'
  | setDefault (name : String) (hname : name ∈ reg.guards.map GuardEntry.aliasName) :
      Edit reg { reg with default := some name }

/-- **A command saves one edit and succeeds, or leaves the file as it was.** -/
inductive CommandEffect (file : RegistryFile) : Except Halt Unit × RegistryFile → Prop
  | kept (result : Except Halt Unit) : CommandEffect file (result, file)
  | saved {reg : Registry} (h : Edit (loadRegistry file) reg) :
      CommandEffect file (.ok (), saveRegistry reg)

theorem roster_push (reg : Registry) (entry : GuardEntry) :
    (reg.push entry).roster = reg.roster.add GuardEntry.aliasName entry := by
  refine Roster.ext rfl ?_
  show (if reg.default.isNone then some entry.aliasName else reg.default)
    = reg.default.or (some entry.aliasName)
  cases reg.default <;> rfl

/-- Removing at the position of an alias is removing the alias. -/
theorem roster_eraseIdx {reg : Registry} {name : String} {idx : ℕ}
    (h : (reg.guards.findIdx? fun g => decide (g.aliasName = name)) = some idx) :
    (Registry.mk (reg.guards.eraseIdx idx)
        (if reg.default = some name then (reg.guards.eraseIdx idx).head?.map GuardEntry.aliasName
          else reg.default)).roster
      = reg.roster.remove GuardEntry.aliasName name := by
  have herase : reg.guards.eraseP (fun g => decide (g.aliasName = name))
      = reg.guards.eraseIdx idx := by
    rw [List.eraseP_eq_eraseIdx, h]
  rw [Registry.roster, Registry.roster, Roster.remove, herase]

theorem any_eq_iff_mem_map {α : Type} {l : List α} {f : α → String} {s : String} :
    (l.any fun a => decide (f a = s)) = true ↔ s ∈ l.map f := by
  simp [List.mem_map]

theorem exists_of_bind_eq_ok {ε α β : Type} {x : Except ε α} {k : α → Except ε β} {r : β}
    (h : x >>= k = .ok r) : ∃ a, x = .ok a ∧ k a = .ok r := by
  cases x with
  | error e => cases h
  | ok a => exact ⟨a, rfl, h⟩

theorem head?_of_positionalExpected {cli cli' : Cli} {argName expected token : String}
    (h : cli.positionalExpected argName expected = .ok (token, cli')) :
    cli.rest.head? = some token := by
  rw [Cli.positionalExpected] at h
  split at h
  · rename_i hrest
    obtain ⟨rfl, -⟩ := Prod.mk.inj (Except.ok.inj h)
    rw [hrest, List.head?_cons]
  · cases h

/-- What `guards add` asks for is named by its first argument. -/
theorem head?_of_addRequest {cli : Cli} {request : AddRequest}
    (h : addRequest cli = .ok (some request)) : cli.rest.head? = some request.aliasName := by
  obtain ⟨⟨aliasName, cli'⟩, halias, h⟩ := exists_of_bind_eq_ok h
  rw [head?_of_positionalExpected halias]
  dsimp only at h
  split_ifs at h with hhelp
  · cases h
  obtain ⟨⟨address, cli'⟩, -, h⟩ := exists_of_bind_eq_ok h
  dsimp only at h
  split_ifs at h with hhelp'
  · cases h
  obtain ⟨⟨admin, cli'⟩, -, h⟩ := exists_of_bind_eq_ok h
  dsimp only at h
  split_ifs at h with hhelp''
  · cases h
  obtain ⟨-, -, h⟩ := exists_of_bind_eq_ok h
  obtain ⟨-, -, h⟩ := exists_of_bind_eq_ok h
  obtain ⟨flags, -, h⟩ := exists_of_bind_eq_ok h
  cases flags with
  | none => cases h
  | some flags =>
    obtain ⟨endpoint, -, h⟩ := exists_of_bind_eq_ok h
    cases h
    rfl

/-- **`guards add` registers a guard under a new alias and a new address**, or does nothing. -/
theorem cmdGuardsAdd_cases (out : Outside) (cli : Cli) (file : RegistryFile) :
    (∃ result, cmdGuardsAdd out cli file = (result, file)) ∨
      ∃ entry : GuardEntry, cli.rest.head? = some entry.aliasName ∧
        entry.aliasName ∉ (loadRegistry file).guards.map GuardEntry.aliasName ∧
        entry.address ∉ (loadRegistry file).guards.map GuardEntry.address ∧
        cmdGuardsAdd out cli file = (.ok (), saveRegistry ((loadRegistry file).push entry)) := by
  rw [cmdGuardsAdd]
  cases hrequest : addRequest cli with
  | error message => exact .inl ⟨_, rfl⟩
  | ok request =>
    cases request with
    | none => exact .inl ⟨_, rfl⟩
    | some request =>
      dsimp only
      cases verifyGuard out ⟨request.endpoint.rpcUrl, request.rpcTimeout⟩ request.address with
      | error halt => exact .inl ⟨_, rfl⟩
      | ok _ =>
        dsimp only
        split_ifs with halias haddress
        · exact .inl ⟨_, rfl⟩
        · exact .inl ⟨_, rfl⟩
        · exact .inr ⟨⟨request.aliasName, request.address, request.admin, out.nowTs⟩,
            head?_of_addRequest hrequest, mt any_eq_iff_mem_map.mpr halias,
            mt any_eq_iff_mem_map.mpr haddress, rfl⟩

theorem cmdGuardsAdd_effect (out : Outside) (cli : Cli) (file : RegistryFile) :
    CommandEffect file (cmdGuardsAdd out cli file) := by
  rcases cmdGuardsAdd_cases out cli file with ⟨result, h⟩ | ⟨entry, -, halias, haddress, h⟩
  · rw [h]
    exact .kept result
  · rw [h]
    exact .saved (.add entry halias haddress)

theorem cmdGuardsRemove_effect (cli : Cli) (file : RegistryFile) :
    CommandEffect file (cmdGuardsRemove cli file) := by
  rw [cmdGuardsRemove]
  split
  · exact .kept _
  · rename_i aliasName _ _
    split_ifs
    · exact .kept _
    dsimp only
    split
    · exact .kept _
    · rename_i idx hidx
      exact .saved (.remove aliasName (roster_eraseIdx hidx))

theorem cmdGuardsSetDefault_effect (cli : Cli) (file : RegistryFile) :
    CommandEffect file (cmdGuardsSetDefault cli file) := by
  rw [cmdGuardsSetDefault]
  split
  · exact .kept _
  · rename_i aliasName _ _
    dsimp only
    split_ifs with hhelp hany
    · exact .kept _
    · exact .saved (.setDefault aliasName (any_eq_iff_mem_map.mp hany))
    · exact .kept _

theorem guardsSubcommand_effect (out : Outside) (subcommand : String) (cli : Cli)
    (file : RegistryFile) : CommandEffect file (guardsSubcommand out subcommand cli file) := by
  rw [guardsSubcommand]
  split_ifs
  · exact cmdGuardsAdd_effect out cli file
  · exact .kept _
  · exact cmdGuardsRemove_effect cli file
  · exact cmdGuardsSetDefault_effect cli file
  · exact .kept _

/-- **What any command line does.** -/
theorem runGuards_effect (out : Outside) (argv : List String) (file : RegistryFile) :
    CommandEffect file (runGuards out argv file) := by
  rw [runGuards]
  split_ifs
  · exact .kept _
  · exact .kept _
  · exact .kept _
  split
  · exact .kept _
  · exact guardsSubcommand_effect out _ _ file

/-! ## The default resolves -/

/-- **A registry in order**: aliases and addresses are distinct, and the default names a guard as
soon as there is one. -/
structure Registry.WellFormed (reg : Registry) : Prop where
  settled : reg.roster.Settled GuardEntry.aliasName
  addresses : (reg.guards.map GuardEntry.address).Nodup

theorem wellFormed_empty : (⟨[], none⟩ : Registry).WellFormed :=
  ⟨Roster.settled_empty _, List.nodup_nil⟩

/-- **One edit keeps the registry in order.** -/
theorem Registry.WellFormed.edit {reg reg' : Registry} (h : reg.WellFormed) (e : Edit reg reg') :
    reg'.WellFormed := by
  cases e with
  | add entry halias haddress =>
    refine ⟨?_, ?_⟩
    · rw [roster_push]
      exact h.settled.add halias
    · rw [Registry.push, List.map_append, List.map_singleton]
      exact List.nodup_append_comm.mp (List.nodup_cons.mpr ⟨haddress, h.addresses⟩)
  | remove name hroster =>
    refine ⟨?_, ?_⟩
    · rw [hroster]
      exact h.settled.remove name
    · have hguards : reg'.guards = (reg.roster.remove GuardEntry.aliasName name).entries :=
        congrArg Roster.entries hroster
      rw [hguards]
      exact h.addresses.sublist (Roster.sublist_remove.map GuardEntry.address)
  | setDefault name hname => exact ⟨h.settled.prefer hname, h.addresses⟩

theorem Registry.WellFormed.command {file : RegistryFile} (h : (loadRegistry file).WellFormed)
    (out : Outside) (argv : List String) :
    (loadRegistry (runGuards out argv file).2).WellFormed := by
  have heffect := runGuards_effect out argv file
  generalize runGuards out argv file = r at heffect ⊢
  cases heffect with
  | kept result => exact h
  | saved hedit => exact h.edit hedit

/-- The file after a run of command lines, whatever each of them found outside. -/
def runAll (runs : List (Outside × List String)) (file : RegistryFile) : RegistryFile :=
  runs.foldl (fun file run => (runGuards run.1 run.2 file).2) file

/-- **Every run of commands keeps the registry in order.** -/
theorem Registry.WellFormed.runAll {file : RegistryFile} (h : (loadRegistry file).WellFormed)
    (runs : List (Outside × List String)) : (loadRegistry (runAll runs file)).WellFormed := by
  induction runs generalizing file with
  | nil => exact h
  | cons run runs ih => exact ih (h.command run.1 run.2)

/-- **What `resolve_guard` finds** is the guard the default names. -/
theorem resolveGuard_none_eq_ok_iff {file : RegistryFile} (h : (loadRegistry file).WellFormed)
    {address : String} :
    resolveGuard none file = .ok address ↔
      ∃ g ∈ (loadRegistry file).guards,
        (loadRegistry file).default = some g.aliasName ∧ g.address = address := by
  have hchoice := fun g => h.settled.choice_eq_some_iff (a := g)
  rw [resolveGuard]
  change (match (loadRegistry file).roster.choice GuardEntry.aliasName with
    | some g => _
    | none => _) = _ ↔ _
  cases hfound : (loadRegistry file).roster.choice GuardEntry.aliasName with
  | none =>
    refine ⟨fun hok => ?_, ?_⟩
    · dsimp only at hok
      split_ifs at hok
    · rintro ⟨g, hg, hdefault, -⟩
      rw [(hchoice g).mpr ⟨hg, hdefault⟩] at hfound
      cases hfound
  | some g =>
    obtain ⟨hg, hdefault⟩ := (hchoice g).mp hfound
    refine ⟨fun hok => ⟨g, hg, hdefault, Except.ok.inj hok⟩, ?_⟩
    rintro ⟨g', hg', hdefault', rfl⟩
    rw [(hchoice g').mpr ⟨hg', hdefault'⟩] at hfound
    obtain rfl := Option.some.inj hfound
    rfl

/-- It finds one exactly when there is one. -/
theorem resolveGuard_none_ok_iff {file : RegistryFile} (h : (loadRegistry file).WellFormed) :
    (∃ address, resolveGuard none file = .ok address) ↔ (loadRegistry file).guards ≠ [] := by
  have hsome := h.settled.isSome_choice
  rw [Option.isSome_iff_exists] at hsome
  refine Iff.trans ⟨?_, ?_⟩ hsome
  · rintro ⟨address, hok⟩
    obtain ⟨g, hg, hdefault, -⟩ := (resolveGuard_none_eq_ok_iff h).mp hok
    exact ⟨g, h.settled.choice_eq_some_iff.mpr ⟨hg, hdefault⟩⟩
  · rintro ⟨g, hfound⟩
    obtain ⟨hg, hdefault⟩ := h.settled.choice_eq_some_iff.mp hfound
    exact ⟨g.address, (resolveGuard_none_eq_ok_iff h).mpr ⟨g, hg, hdefault, rfl⟩⟩

/-! ## Adding and removing -/

/-- A command line that asks for neither JSON nor help gets to its subcommand. -/
theorem runGuards_of_plain {out : Outside} {subcommand name : String} {args : List String}
    {file : RegistryFile} (hjson : "--json" ∉ subcommand :: name :: args)
    (hsub : asksHelp subcommand = false) (hname : asksHelp name = false) :
    runGuards out (subcommand :: name :: args) file
      = guardsSubcommand out subcommand ⟨"guards", name :: args⟩ file := by
  have hany : ¬((subcommand :: name :: args).any fun arg => decide (arg = "--json")) = true := by
    rw [List.any_eq_true]
    rintro ⟨arg, harg, heq⟩
    exact hjson (of_decide_eq_true heq ▸ harg)
  have hfirst : ¬(subcommand :: name :: args).head?.all asksHelp = true := by simp [hsub]
  have hsecond : ¬(subcommand :: name :: args)[1]?.any asksHelp = true := by simp [hname]
  rw [runGuards, if_neg hany, if_neg hfirst, if_neg hsecond]
  rfl

/-- Any other does nothing. -/
theorem runGuards_cases (out : Outside) (subcommand name : String) (args : List String)
    (file : RegistryFile) :
    (∃ result, runGuards out (subcommand :: name :: args) file = (result, file)) ∨
      name ≠ "--json" ∧ asksHelp name = false ∧
        runGuards out (subcommand :: name :: args) file
          = guardsSubcommand out subcommand ⟨"guards", name :: args⟩ file := by
  rw [runGuards]
  split_ifs with hjson hsub hname
  · exact .inl ⟨_, rfl⟩
  · exact .inl ⟨_, rfl⟩
  · exact .inl ⟨_, rfl⟩
  · refine .inr ⟨?_, by simpa using hname, rfl⟩
    rintro rfl
    exact hjson (by simp)

/-- Removing an alias that is not there does nothing. -/
theorem cmdGuardsRemove_of_notMem {name : String} {file : RegistryFile}
    (h : name ∉ (loadRegistry file).guards.map GuardEntry.aliasName) :
    ∃ result, cmdGuardsRemove ⟨"guards", [name]⟩ file = (result, file) := by
  have hnone : ((loadRegistry file).guards.findIdx? fun g => decide (g.aliasName = name))
      = none := by
    rw [List.findIdx?_eq_none_iff]
    exact fun g hg => decide_eq_false fun heq => h (List.mem_map.mpr ⟨g, hg, heq⟩)
  rw [cmdGuardsRemove]
  dsimp only [Cli.positionalExpected]
  by_cases hhelp : isHelp name = true
  · rw [if_pos hhelp]
    exact ⟨_, rfl⟩
  · rw [if_neg hhelp, hnone]
    exact ⟨_, rfl⟩

/-- Removing one that is there saves the roster without it. -/
theorem cmdGuardsRemove_of_mem {name : String} {file : RegistryFile} (hhelp : isHelp name = false)
    (h : name ∈ (loadRegistry file).guards.map GuardEntry.aliasName) :
    ∃ reg : Registry, cmdGuardsRemove ⟨"guards", [name]⟩ file = (.ok (), saveRegistry reg) ∧
      reg.roster = (loadRegistry file).roster.remove GuardEntry.aliasName name := by
  obtain ⟨g, hg, hname⟩ := List.mem_map.mp h
  have hsome : ∃ idx, ((loadRegistry file).guards.findIdx? fun g => decide (g.aliasName = name))
      = some idx := by
    refine Option.ne_none_iff_exists'.mp fun hnone => ?_
    have := List.findIdx?_eq_none_iff.mp hnone g hg
    simp [hname] at this
  obtain ⟨idx, hidx⟩ := hsome
  rw [cmdGuardsRemove]
  dsimp only [Cli.positionalExpected]
  rw [if_neg (by simp [hhelp]), hidx]
  exact ⟨_, rfl, roster_eraseIdx hidx⟩

theorem isHelp_of_asksHelp {token : String} (h : asksHelp token = false) :
    isHelp token = false := (Bool.or_eq_false_iff.mp h).1

theorem roster_injective : Function.Injective Registry.roster := by
  rintro ⟨guards, default⟩ ⟨guards', default'⟩ h
  obtain ⟨rfl, rfl⟩ := Roster.mk.inj h
  rfl

/-- `guards remove` of an alias that is not there leaves the file alone. -/
theorem runGuards_remove_of_notMem {out : Outside} {name : String} {file : RegistryFile}
    (h : name ∉ (loadRegistry file).guards.map GuardEntry.aliasName) :
    (runGuards out ["remove", name] file).2 = file := by
  rcases runGuards_cases out "remove" name [] file with ⟨result, hrun⟩ | ⟨-, -, hrun⟩
  · rw [hrun]
  · obtain ⟨result, hremove⟩ := cmdGuardsRemove_of_notMem h
    rw [hrun]
    exact congrArg Prod.snd hremove

/-- **What `guards add` registered under a new alias, `guards remove` takes back.** -/
theorem remove_after_add {file : RegistryFile} (h : (loadRegistry file).WellFormed)
    (out out' : Outside) {name : String} (args : List String)
    (hfresh : name ∉ (loadRegistry file).guards.map GuardEntry.aliasName) :
    loadRegistry (runGuards out' ["remove", name]
      (runGuards out ("add" :: name :: args) file).2).2 = loadRegistry file := by
  rcases runGuards_cases out "add" name args file with ⟨result, hadd⟩ | ⟨hjson, hhelp, hadd⟩
  · rw [hadd, runGuards_remove_of_notMem hfresh]
  rw [hadd]
  change loadRegistry (runGuards out' ["remove", name]
    (cmdGuardsAdd out ⟨"guards", name :: args⟩ file).2).2 = _
  rcases cmdGuardsAdd_cases out ⟨"guards", name :: args⟩ file with
    ⟨result, hcmd⟩ | ⟨entry, hname, -, -, hcmd⟩
  · rw [hcmd, runGuards_remove_of_notMem hfresh]
  obtain rfl : name = entry.aliasName := Option.some.inj hname
  have hplain : "--json" ∉ ["remove", entry.aliasName] := by
    simpa using hjson.symm
  let added := saveRegistry ((loadRegistry file).push entry)
  have hmem : entry.aliasName ∈ (loadRegistry added).guards.map GuardEntry.aliasName :=
    List.mem_map_of_mem (List.mem_append_right _ List.mem_cons_self)
  obtain ⟨reg, hremove, hroster⟩ := cmdGuardsRemove_of_mem (isHelp_of_asksHelp hhelp) hmem
  have hrun : guardsSubcommand out' "remove" ⟨"guards", [entry.aliasName]⟩ added
      = (.ok (), saveRegistry reg) := hremove
  rw [hcmd, runGuards_of_plain hplain rfl hhelp, hrun]
  refine roster_injective (hroster.trans ?_)
  change ((loadRegistry file).push entry).roster.remove GuardEntry.aliasName entry.aliasName = _
  rw [roster_push]
  exact h.settled.remove_add hfresh

/-- **The guard registry always resolves.**  After any run of `guards` command lines from the empty
registry, aliases and addresses are distinct, and there is no default exactly when there is no
guard; so a command without `--guard` gets one exactly when there is one, and then it is the default
one.  A command that fails leaves the file alone, and adding and then removing a new alias leaves
the registry as it was. -/
theorem registry_always_resolves {file : RegistryFile} (hempty : loadRegistry file = ⟨[], none⟩)
    (runs : List (Outside × List String)) :
    let reg := loadRegistry (runAll runs file)
    (reg.guards.map GuardEntry.aliasName).Nodup ∧
      (reg.guards.map GuardEntry.address).Nodup ∧
      (reg.default = none ↔ reg.guards = []) ∧
      (∀ name, reg.default = some name → name ∈ reg.guards.map GuardEntry.aliasName) ∧
      ((∃ address, resolveGuard none (runAll runs file) = .ok address) ↔ reg.guards ≠ []) ∧
      (∀ address, resolveGuard none (runAll runs file) = .ok address ↔
        ∃ g ∈ reg.guards, reg.default = some g.aliasName ∧ g.address = address) ∧
      (∀ out argv, (runGuards out argv (runAll runs file)).1 ≠ .ok () →
        (runGuards out argv (runAll runs file)).2 = runAll runs file) ∧
      ∀ (out out' : Outside) (name : String) (args : List String),
        name ∉ reg.guards.map GuardEntry.aliasName →
          loadRegistry (runGuards out' ["remove", name]
            (runGuards out ("add" :: name :: args) (runAll runs file)).2).2 = reg := by
  have hstart : (loadRegistry file).WellFormed := hempty ▸ wellFormed_empty
  have h := hstart.runAll runs
  refine ⟨h.settled.distinct, h.addresses, h.settled.none_iff, h.settled.names,
    resolveGuard_none_ok_iff h, fun address => resolveGuard_none_eq_ok_iff h,
    fun out argv hfail => ?_, fun out out' name args hfresh => ?_⟩
  · have heffect := runGuards_effect out argv (runAll runs file)
    generalize runGuards out argv (runAll runs file) = r at heffect hfail ⊢
    cases heffect with
    | kept result => rfl
    | saved hedit => exact absurd rfl hfail
  · exact remove_after_add h out out' args hfresh

namespace Sample

/-- A machine whose endpoint answers every simulation without an error. -/
def outside : Outside where
  parseScAddress s := (validateKey "address" .contract s).map fun key =>
    .contract (BitVec.ofNat 256 (spelled 8 (key.toList.map UInt8.toNat)))
  simulate _ _ := some (.obj [("latestLedger", .num "100")])
  render _ := ""
  nowTs := 100

def prodGuard : GuardEntry where
  aliasName := "prod"
  address := "CAAAAAAAAAAAAAAAAAAAAAAAAAAAAAAAAAAAAAAAAAAAAAAAAAAABSC4"
  admin := "GAAAAAAAAAAAAAAAAAAAAAAAAAAAAAAAAAAAAAAAAAAAAAAAAAAAAWHF"
  addedAt := 100

def backupGuard : GuardEntry where
  aliasName := "backup"
  address := "CAAQCAIBAEAQCAIBAEAQCAIBAEAQCAIBAEAQCAIBAEAQCAIBAEAQC526"
  admin := "GAAAAAAAAAAAAAAAAAAAAAAAAAAAAAAAAAAAAAAAAAAAAAAAAAAAAWHF"
  addedAt := 100

def addGuard (g : GuardEntry) : List String := ["add", g.aliasName, g.address, g.admin]

/-- Two guards are added, one of them twice, and the default one is removed. -/
def replaceProd : List (Outside × List String) :=
  [(outside, addGuard prodGuard), (outside, addGuard backupGuard),
    (outside, addGuard prodGuard), (outside, ["remove", "prod"])]

/-- **The default moves on to the guard that is left**, and resolves to its address. -/
theorem replaceProd_resolves :
    loadRegistry (runAll replaceProd none) = ⟨[backupGuard], some "backup"⟩ ∧
      resolveGuard none (runAll replaceProd none) = .ok backupGuard.address := by
  have hrun : loadRegistry (runAll replaceProd none) = ⟨[backupGuard], some "backup"⟩ := by
    decide +kernel
  have hempty : loadRegistry none = ⟨[], none⟩ := rfl
  obtain ⟨-, -, -, -, -, hresolve, -⟩ := registry_always_resolves hempty replaceProd
  refine ⟨hrun, (hresolve backupGuard.address).mpr ?_⟩
  rw [hrun]
  exact ⟨backupGuard, List.mem_singleton_self _, rfl, rfl⟩

end Sample

end AgentGuard.AgentTx
