import AgentGuard.AgentTx.Entries

/-!
# AgentTx/Report — the verdict of a simulation

Four functions of `main.rs` read the same `simulateTransaction` response: the report that `--json`
prints, the message and the events that are shown, and the test for a block by the guard.  Decoding
an event is the XDR library's business, and enters as the partial function `decode`.
-/

namespace AgentGuard.AgentTx

/-! ## JSON values -/

/-- A JSON value; a number is kept as its text. -/
inductive Json
  | null
  | bool (b : Bool)
  | num (text : String)
  | str (s : String)
  | arr (items : List Json)
  | obj (members : List (String × Json))

namespace Json

/-- `value.get(key)`: only an object has members. -/
def get (key : String) : Json → Option Json
  | .obj members => members.lookup key
  | _ => none

/-- `value[key]`: a missing member reads as `null`. -/
def index (v : Json) (key : String) : Json := (v.get key).getD .null

def asStr : Json → Option String
  | .str s => some s
  | _ => none

def asArray : Json → Option (List Json)
  | .arr items => some items
  | _ => none

def isNull : Json → Bool
  | .null => true
  | _ => false

end Json

/-! ## Strings -/

/-- `char::is_whitespace`: the Unicode property `White_Space`. -/
def isWhitespace (c : Char) : Bool :=
  let n := c.toNat
  (0x9 ≤ n ∧ n ≤ 0xD) ∨ n = 0x20 ∨ n = 0x85 ∨ n = 0xA0 ∨ n = 0x1680 ∨ (0x2000 ≤ n ∧ n ≤ 0x200A) ∨
    n = 0x2028 ∨ n = 0x2029 ∨ n = 0x202F ∨ n = 0x205F ∨ n = 0x3000

/-- `str::trim`. -/
def trim (s : String) : String :=
  .ofList ((s.toList.dropWhile isWhitespace).reverse.dropWhile isWhitespace).reverse

/-- `str::rsplit_once`: what stands before and after the last occurrence of `pat`. -/
def rsplitOnce (pat : List Char) : List Char → Option (List Char × List Char)
  | [] => if pat.isEmpty then some ([], []) else none
  | c :: s =>
    match rsplitOnce pat s with
    | some (before, tail) => some (c :: before, tail)
    | none => if pat.isPrefixOf (c :: s) then some ([], (c :: s).drop pat.length) else none

/-! ## The report -/

/-- A character of a reason symbol. -/
def isReasonChar (c : Char) : Bool := ('a' ≤ c ∧ c ≤ 'z') ∨ ('0' ≤ c ∧ c ≤ '9') ∨ c = '_'

/-- A reason symbol as the contract writes them; anything else is not one. -/
def reasonSymbol (token : String) : Option String :=
  let token := trim token
  if token.isEmpty || !token.toList.all isReasonChar then none else some token

/-- What is read of a decoded diagnostic event. -/
structure DiagnosticEvent where
  contractId : Option (BitVec 256)
  topics : List ScVal

def DiagnosticEvent.topicSymbol (event : DiagnosticEvent) (i : ℕ) : Option Symbol :=
  match event.topics[i]? with
  | some (.symbol name) => some name
  | _ => none

/-- The verdict word of a report. -/
inductive Outcome
  | allowed | blocked | failed
deriving DecidableEq

/-- The structured object `--json` prints for a run. -/
structure RunReport where
  outcome : Outcome
  reason : Option String
  txHash : Option String
  ledger : Option U32
  network : Option String
deriving DecidableEq

namespace RunReport

def new (outcome : Outcome) (reason : Option String) : RunReport :=
  ⟨outcome, reason, none, none, none⟩

/-- A run whose call the policy admitted. -/
def allowed : RunReport := new .allowed none

/-- A run the policy rejected, with the reason symbol behind the rejection. -/
def blocked (reason : String) : RunReport := new .blocked (some reason)

end RunReport

/-- The encoded event: under `xdr`, or the value itself. -/
def eventXdr (event : Json) : Option String := (event.index "xdr").asStr.or event.asStr

section

variable (decode : String → Option DiagnosticEvent) (render : Json → String)

/-- The reason an event names: the last topic of an `event_auth_checked`, `blocked` event. -/
def eventReason (event : Json) : Option String :=
  match (eventXdr event).bind decode with
  | none => none
  | some event =>
    let isBlock := event.topicSymbol 0 = some "event_auth_checked" ∧
      event.topicSymbol 1 = some "blocked"
    if isBlock then
      match event.topics.getLast? with
      | some (.symbol name) => reasonSymbol name
      | _ => none
    else none

/-- The reason symbol behind an error, best source first. -/
def simReason (err : Json) : String :=
  let named := ((err.index "data").index "events").asArray.bind fun events =>
    events.findSome? (eventReason decode)
  let tail := (err.index "message").asStr.bind fun message =>
    (rsplitOnce "auth_checked:".toList message.toList).bind fun (_, tail) =>
      reasonSymbol (.ofList tail)
  let code := (err.index "code").asStr.bind reasonSymbol
  ((named.or tail).or code).getD "unknown"

/-- The verdict a response carries. -/
def simulationReport (sim : Json) : RunReport :=
  match sim.get "error" with
  | some err => .blocked (simReason decode err)
  | none => .allowed

def simulationErrorMessage (simulation : Json) : Option String :=
  match simulation.get "error" with
  | none => none
  | some error =>
    if error.isNull then none
    else
      match error.asStr with
      | some message => some message
      | none => some ((error.index "message").asStr.getD (render error))

def simulationEvents (simulation : Json) : Option (List Json) :=
  (simulation.index "events").asArray.or
    (((simulation.index "error").index "data").index "events").asArray

def DiagnosticEvent.hasTopic (event : DiagnosticEvent) (expected : Symbol) : Bool :=
  event.topics.any fun topic => topic = .symbol expected

/-- Whether the response carries a block by the guard. -/
def isGuardAuthCheckedBlock (simulation : Json) (guard : Address) : Bool :=
  match simulationEvents simulation with
  | none => false
  | some events => events.any fun event =>
    match (eventXdr event).bind decode with
    | none => false
    | some decoded =>
      let contractMatches :=
        match guard with
        | .contract id => decoded.contractId = some id
        | _ => false
      contractMatches && decoded.hasTopic "event_auth_checked" && decoded.hasTopic "blocked"

end

/-! ## Reasons -/

/-- Lowercase letters, digits and underscores, at least one. -/
structure IsReasonSymbol (r : Symbol) : Prop where
  nonempty : r.toList ≠ []
  chars : ∀ c ∈ r.toList, isReasonChar c = true

theorem isWhitespace_of_isReasonChar {c : Char} (h : isReasonChar c = true) :
    isWhitespace c = false := by
  have hrange : (97 ≤ c.toNat ∧ c.toNat ≤ 122) ∨ (48 ≤ c.toNat ∧ c.toNat ≤ 57) ∨ c.toNat = 95 := by
    rw [isReasonChar, decide_eq_true_eq] at h
    rcases h with ⟨ha, hz⟩ | ⟨h0, h9⟩ | rfl
    · exact .inl ⟨ha, hz⟩
    · exact .inr (.inl ⟨h0, h9⟩)
    · exact .inr (.inr rfl)
  rw [isWhitespace, decide_eq_false_iff_not]
  omega

/-- A list none of whose ends is dropped. -/
theorem dropWhile_eq_self {α : Type} {p : α → Bool} {l : List α} (h : ∀ a ∈ l, p a = false) :
    l.dropWhile p = l := by
  cases l with
  | nil => rfl
  | cons a l => rw [List.dropWhile_cons_of_neg (by simp [h a List.mem_cons_self])]

/-- **A reason symbol stands for itself.** -/
theorem IsReasonSymbol.reasonSymbol_eq {r : Symbol} (h : IsReasonSymbol r) :
    reasonSymbol r = some r := by
  have hkept : ∀ c ∈ r.toList, isWhitespace c = false := fun c hc =>
    isWhitespace_of_isReasonChar (h.chars c hc)
  have htrim : trim r = r := by
    rw [trim, dropWhile_eq_self hkept,
      dropWhile_eq_self fun c hc => hkept c (List.mem_reverse.mp hc), List.reverse_reverse,
      String.ofList_toList]
  have hne : r.isEmpty = false := by
    rw [← Bool.not_eq_true, String.isEmpty_iff]
    rintro rfl
    exact h.nonempty rfl
  have hall : r.toList.all isReasonChar = true := List.all_eq_true.mpr h.chars
  simp [reasonSymbol, htrim, hne, hall]

/-- **A block of the guard's own**: an event of the guard with exactly the topics
`event_auth_checked`, `blocked` and a reason symbol. -/
structure GuardBlock (decode : String → Option DiagnosticEvent) (guard : Address) (event : Json)
    (r : Symbol) : Prop where
  decoded : ∃ id, guard = .contract id ∧ (eventXdr event).bind decode
    = some ⟨some id, [.symbol "event_auth_checked", .symbol "blocked", .symbol r]⟩
  reason : IsReasonSymbol r

section

variable {decode : String → Option DiagnosticEvent} {render : Json → String} {sim event : Json}
  {guard : Address} {r : Symbol}

theorem GuardBlock.eventReason_eq (h : GuardBlock decode guard event r) :
    eventReason decode event = some r := by
  obtain ⟨⟨id, -, hdecoded⟩, hreason⟩ := h
  simp [eventReason, hdecoded, DiagnosticEvent.topicSymbol, hreason.reasonSymbol_eq]

/-- A guard block among the events that are looked at is found. -/
theorem GuardBlock.isBlock {events : List Json} (h : GuardBlock decode guard event r)
    (hevents : simulationEvents sim = some events) (hmem : event ∈ events) :
    isGuardAuthCheckedBlock decode sim guard = true := by
  obtain ⟨⟨id, rfl, hdecoded⟩, -⟩ := h
  simp only [isGuardAuthCheckedBlock, hevents, List.any_eq_true]
  exact ⟨event, hmem, by simp [hdecoded, DiagnosticEvent.hasTopic]⟩

/-- **The first event that names a reason decides.** -/
theorem simReason_of_event {err : Json} {before after : List Json}
    (hevents : (err.index "data").index "events" = .arr (before ++ event :: after))
    (hbefore : ∀ e ∈ before, eventReason decode e = none)
    (hevent : eventReason decode event = some r) : simReason decode err = r := by
  have hnamed : (before ++ event :: after).findSome? (eventReason decode) = some r := by
    rw [List.findSome?_append, List.findSome?_eq_none_iff.mpr hbefore, List.findSome?_cons, hevent]
    rfl
  simp only [simReason, hevents, Json.asArray, Option.bind_some, hnamed, Option.some_or,
    Option.getD_some]

theorem outcome_simulationReport :
    ((simulationReport decode sim).outcome = .blocked ↔ (sim.get "error").isSome) ∧
      ((simulationReport decode sim).outcome = .allowed ↔ sim.get "error" = none) := by
  rw [simulationReport]
  cases sim.get "error" <;> simp [RunReport.allowed, RunReport.blocked, RunReport.new]

/-- There is a message for every error but a null one. -/
theorem simulationErrorMessage_isSome_iff (hnull : sim.get "error" ≠ some .null) :
    (simulationErrorMessage render sim).isSome ↔ (sim.get "error").isSome := by
  rw [simulationErrorMessage]
  cases herror : sim.get "error" with
  | none => simp
  | some error =>
    have hkept : error.isNull = false := by
      cases error with
      | null => exact absurd herror hnull
      | _ => rfl
    simp only [hkept, Bool.false_eq_true, if_false, Option.isSome_some, iff_true]
    cases error.asStr <;> rfl

/-- **The report agrees with the message.**  Unless the response carries a null error, it is
reported as blocked exactly when there is a message, and as allowed exactly when there is none; and
when the error's events hold a block of the guard's own, and none before it names a reason, the
report gives its reason. -/
theorem report_matches (hnull : sim.get "error" ≠ some .null) :
    ((simulationReport decode sim).outcome = .blocked
        ↔ (simulationErrorMessage render sim).isSome) ∧
      ((simulationReport decode sim).outcome = .allowed
        ↔ simulationErrorMessage render sim = none) ∧
      ∀ (guard : Address) (before : List Json) (event : Json) (after : List Json) (r : Symbol),
        ((sim.index "error").index "data").index "events" = .arr (before ++ event :: after) →
        GuardBlock decode guard event r → (∀ e ∈ before, eventReason decode e = none) →
          (simulationReport decode sim).reason = some r := by
  obtain ⟨hblocked, hallowed⟩ := @outcome_simulationReport decode sim
  have hmessage := @simulationErrorMessage_isSome_iff render sim hnull
  refine ⟨hblocked.trans hmessage.symm, ?_, ?_⟩
  · rw [hallowed, ← Option.not_isSome_iff_eq_none, ← hmessage, Option.not_isSome_iff_eq_none]
  · intro guard before event after r hevents hevent hbefore
    cases herror : sim.get "error" with
    | none =>
      -- there is no error for the events to hang on
      rw [Json.index, Json.index, Json.index, herror] at hevents
      exact Json.noConfusion hevents
    | some err =>
      have herr : sim.index "error" = err := by rw [Json.index, herror, Option.getD_some]
      rw [simulationReport, herror]
      exact congrArg some (simReason_of_event (herr ▸ hevents) hbefore hevent.eventReason_eq)

end

namespace Sample

/-- A library that decodes two texts: a block of the guard at `0`, and a verdict that allows. -/
def decodeBlock (encoded : String) : Option DiagnosticEvent :=
  if encoded = "AAAA" then
    some ⟨some 0, [.symbol "event_auth_checked", .symbol "blocked", .symbol "window_cap_exceeded"]⟩
  else if encoded = "BBBB" then some ⟨some 0, [.symbol "event_auth_checked", .symbol "allowed"]⟩
  else none

/-- An error with the guard's block behind it, after two events that name no reason: a verdict that
allows, and one without an encoding. -/
def withEvent : Json :=
  .obj [("error", .obj [("code", .str "simulation"),
    ("data", .obj [("events",
      .arr [.obj [("xdr", .str "BBBB")], .null, .obj [("xdr", .str "AAAA")]])])])]

/-- The report names the event's reason, rather than the error's code. -/
theorem withEvent_reason :
    (simulationReport decodeBlock withEvent).outcome = .blocked ∧
      (simulationReport decodeBlock withEvent).reason = some "window_cap_exceeded" := by
  obtain ⟨hblocked, -, hreason⟩ :=
    @report_matches decodeBlock (fun _ => "") withEvent (by simp [withEvent, Json.get])
  refine ⟨hblocked.mpr (by rfl), ?_⟩
  refine hreason (.contract 0) [.obj [("xdr", .str "BBBB")], .null] (.obj [("xdr", .str "AAAA")])
    [] "window_cap_exceeded" (by rfl)
    ⟨⟨0, rfl, by rfl⟩, ⟨by decide, List.all_eq_true.mp (by decide)⟩⟩ fun e he => ?_
  simp only [List.mem_cons, List.not_mem_nil, or_false] at he
  rcases he with rfl | rfl
  · rfl
  · rfl

/-- The network refuses a transaction for its fee: the run reports it as blocked, though the guard
blocked nothing. -/
theorem fee_reported_blocked :
    let sim : Json := .obj [("error", .str "tx_insufficient_fee"), ("events", .arr [])]
    (simulationReport decodeBlock sim).outcome = .blocked ∧
      simulationErrorMessage (fun _ => "") sim = some "tx_insufficient_fee" ∧
      isGuardAuthCheckedBlock decodeBlock sim (.contract 0) = false :=
  ⟨by rfl, by rfl, by rfl⟩

end Sample

end AgentGuard.AgentTx
