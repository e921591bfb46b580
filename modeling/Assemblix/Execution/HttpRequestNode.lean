import Assemblix.Execution.AgentNode
import Assemblix.Execution.SetVariableNode
import Assemblix.Library.Words

/-
The HTTP request node: its body, its attempts and what it makes of the last one.

The templates are rendered and the address is checked before; an attempt ends as the client library
has it. `json.loads` is a parameter with the one thing the node relies on: a text that is an object
or an array begins with its bracket, and one that begins with a bracket is nothing else.
-/

namespace Assemblix.HttpRequestNode

open Library

/-! ### The request -/

inductive HttpMethod
  | get
  | post
  | put
  | patch
  | delete
  deriving DecidableEq

structure HTTPRequestNodeConfig where
  url : String
  method : HttpMethod := .get
  headers : Dict String String := Dict.empty
  body : Option String := none
  queryParams : Dict String String := Dict.empty
  timeout : Int := 30
  maxRetries : Option Nat := none

structure HttpSettings where
  httpNodeNumRetries : Nat := 2

structure Rendered where
  url : String
  headers : Dict String String := Dict.empty
  queryParams : Dict String String := Dict.empty
  body : String

def StartsWith (letter : Char) (text : String) : Prop :=
  (strip SetVariableNode.isSpace text.toList).head? = some letter

instance (letter : Char) (text : String) : Decidable (StartsWith letter text) :=
  inferInstanceAs (Decidable (_ = _))

/-- What reading JSON gives: the value, a `JSONDecodeError`, or another error (a number with too
many digits, too deep a nesting, bytes that are no text). -/
inductive JsonReading
  | value (json : Json)
  | decodeError
  | failed (detail : String)

structure JsonLoads where
  loads : String → JsonReading
  object_starts : ∀ text fields, loads text = .value (.obj fields) → StartsWith '\x7b' text
  array_starts : ∀ text items, loads text = .value (.arr items) → StartsWith '[' text
  opened : ∀ text json, StartsWith '\x7b' text ∨ StartsWith '[' text → loads text = .value json →
    (∃ fields, json = .obj fields) ∨ ∃ items, json = .arr items

inductive RequestBody
  | value (json : Json)
  | text (content : String)

def HttpMethod.sendsBody (method : HttpMethod) : Bool := method ∈ [.post, .put, .patch]

def HTTPRequestNodeConfig.hasBody (config : HTTPRequestNodeConfig) : Bool :=
  config.body.any (fun text => text ≠ "")

def LooksLikeJson (text : String) : Prop := StartsWith '\x7b' text ∨ StartsWith '[' text

instance (text : String) : Decidable (LooksLikeJson text) := inferInstanceAs (Decidable (_ ∨ _))

def prepareBody (json : JsonLoads) (config : HTTPRequestNodeConfig) (bodyStr : String) :
    Except String (Option RequestBody) :=
  if config.hasBody = true ∧ config.method.sendsBody = true then
    if LooksLikeJson bodyStr then
      match json.loads bodyStr with
      | .value value => .ok (some (.value value))
      | .decodeError => .ok (some (.text bodyStr))
      | .failed detail => .error detail
    else .ok (some (.text bodyStr))
  else .ok none

structure HttpRequest where
  method : HttpMethod
  url : String
  headers : Dict String String
  params : Option (Dict String String)
  json : Option Json
  content : Option String
  timeout : Int
  pinnedIp : Option String

def requestOf (config : HTTPRequestNodeConfig) (rendered : Rendered) (pinnedIp : Option String)
    (body : Option RequestBody) : HttpRequest where
  method := config.method
  url := rendered.url
  headers := rendered.headers
  params := if config.method = .get then some rendered.queryParams else none
  -- `isinstance(body, dict)`: a list is neither a dict nor a string
  json := match body with
    | some (.value (.obj fields)) => if config.method ≠ .get then some (.obj fields) else none
    | _ => none
  content := match body with
    | some (.value (.str content)) => if config.method ≠ .get then some content else none
    | some (.text content) => if config.method ≠ .get then some content else none
    | _ => none
  timeout := config.timeout
  pinnedIp := pinnedIp

/-! ### An attempt -/

structure Response where
  statusCode : Nat
  headers : Dict String String
  json : JsonReading
  text : String

inductive HttpError
  | status (response : Response)
  | timeout (detail : String)
  | transport (detail : String)
  | request (detail : String)
  | other (detail : String)

def HttpError.call : HttpError → CallError
  | .status response => .httpStatus response.statusCode
  | .timeout _ => .transport
  | .transport _ => .transport
  | .request _ => .other
  | .other _ => .other

def isTransientHttp (error : HttpError) : Bool := error.call.isTransient

inductive Outcome
  | response (response : Response)
  | timeout (detail : String)
  | connectionError (detail : String)
  -- Another `RequestError`.
  | requestError (detail : String)
  | other (detail : String)

def doRequest : Outcome → Except HttpError Response
  | .response response =>
      if response.statusCode = 429 ∨ 500 ≤ response.statusCode then .error (.status response)
      else .ok response
  | .timeout detail => .error (.timeout detail)
  | .connectionError detail => .error (.transport detail)
  | .requestError detail => .error (.request detail)
  | .other detail => .error (.other detail)

/-- The attempts from one on, with how many were made in all: a transient error is tried again
while there are retries left. -/
def retrying (attempt : Nat → Except HttpError Response) :
    Nat → Nat → Nat × Except HttpError Response
  | 0, index => (index + 1, attempt index)
  | left + 1, index =>
      match attempt index with
      | .ok response => (index + 1, .ok response)
      | .error error =>
          if isTransientHttp error then retrying attempt left (index + 1)
          else (index + 1, .error error)

/-! ### The node -/

inductive ResponseBody
  | json (value : Json)
  | text (content : String)

def Response.hasJson (response : Response) : Bool :=
  decide ("application/json".toList <:+: ((response.headers.lookup "content-type").getD "").toList)

def parseResponseBody (response : Response) : Except String ResponseBody :=
  if response.hasJson then
    match response.json with
    | .value value => .ok (.json value)
    | .decodeError => .ok (.text response.text)
    | .failed detail => .error detail
  else .ok (.text response.text)

structure HttpOutput where
  statusCode : Nat
  body : ResponseBody
  headers : Dict String String
  ok : Bool
  url : String
  method : HttpMethod

inductive NodeFailure
  | runtimeError (message : String)
  | raised (error : HttpError)
  | undecoded (detail : String)

def outputOf (config : HTTPRequestNodeConfig) (rendered : Rendered) (response : Response)
    (body : ResponseBody) (ok : Bool) : HttpOutput where
  statusCode := response.statusCode
  body := body
  headers := response.headers
  ok := ok
  url := rendered.url
  method := config.method

def settle (config : HTTPRequestNodeConfig) (rendered : Rendered) :
    Except HttpError Response → Except NodeFailure HttpOutput
  | .ok response =>
      match parseResponseBody response with
      | .ok body =>
          .ok (outputOf config rendered response body (decide (response.statusCode < 400)))
      | .error detail => .error (.runtimeError s!"Unexpected error in HTTP request: {detail}")
  | .error (.status response) =>
      match parseResponseBody response with
      | .ok body => .ok (outputOf config rendered response body false)
      | .error detail => .error (.undecoded detail)
  | .error (.other detail) => .error (.runtimeError s!"Unexpected error in HTTP request: {detail}")
  | .error error => .error (.raised error)

def HTTPRequestNodeConfig.retries (settings : HttpSettings) (config : HTTPRequestNodeConfig) :
    Nat :=
  config.maxRetries.getD settings.httpNodeNumRetries

def execute (json : JsonLoads) (settings : HttpSettings) (config : HTTPRequestNodeConfig)
    (rendered : Rendered) (resolved : Except String (Option String)) (outcomes : Nat → Outcome) :
    List HttpRequest × Except NodeFailure HttpOutput :=
  match resolved with
  | .error detail => ([], .error (.runtimeError s!"Blocked outbound request: {detail}"))
  | .ok pinnedIp =>
      match prepareBody json config rendered.body with
      | .error detail => ([], .error (.undecoded detail))
      | .ok body =>
          let ended :=
            retrying (fun index => doRequest (outcomes index)) (config.retries settings) 0
          (List.replicate ended.1 (requestOf config rendered pinnedIp body),
            settle config rendered ended.2)

/-! ### What a node run should do -/

def Outcome.isTransient : Outcome → Bool
  | .response got => decide (got.statusCode = 429 ∨ 500 ≤ got.statusCode)
  | .timeout _ => true
  | .connectionError _ => true
  | .requestError _ => false
  | .other _ => false

def Carries (json : JsonLoads) (text : String) (request : HttpRequest) : Prop :=
  match json.loads text with
  | .value (.obj fields) => request.json = some (.obj fields) ∧ request.content = none
  | .value (.arr items) => request.json = some (.arr items) ∧ request.content = none
  | _ => request.json = none ∧ request.content = some text

def bodyOf (response : Response) : ResponseBody :=
  if response.hasJson then
    match response.json with
    | .value value => .json value
    | _ => .text response.text
  else .text response.text

def Answers (config : HTTPRequestNodeConfig) (rendered : Rendered)
    (result : Except NodeFailure HttpOutput) : Outcome → Prop
  | .response got =>
      result = .ok (outputOf config rendered got (bodyOf got) (decide (got.statusCode < 400)))
  | .timeout detail => result = .error (.raised (.timeout detail))
  | .connectionError detail => result = .error (.raised (.transport detail))
  | .requestError detail => result = .error (.raised (.request detail))
  | .other detail => result =
      .error (.runtimeError s!"Unexpected error in HTTP request: {detail}")

structure Delivers (json : JsonLoads) (settings : HttpSettings) (config : HTTPRequestNodeConfig)
    (rendered : Rendered) (resolved : Except String (Option String)) (outcomes : Nat → Outcome)
    (run : List HttpRequest × Except NodeFailure HttpOutput) : Prop where
  attempted : ∀ pinnedIp, resolved = .ok pinnedIp → run.1 ≠ []
  payload : config.hasBody = true → config.method.sendsBody = true →
    ∀ request ∈ run.1, Carries json rendered.body request
  bounded : run.1.length ≤ config.retries settings + 1
  stops : ∀ index, index + 1 < run.1.length → (outcomes index).isTransient = true
  answer : ∀ last, run.1.length = last + 1 → Answers config rendered run.2 (outcomes last)

structure Decisive (outcomes : Nat → Outcome) (retries index : Nat) : Prop where
  allowed : index ≤ retries
  before : ∀ earlier < index, (outcomes earlier).isTransient = true
  final : index = retries ∨ (outcomes index).isTransient = false

def Readable (response : Response) : Prop :=
  response.hasJson = true → ∀ detail, response.json ≠ .failed detail

structure Sendable (json : JsonLoads) (text : String) : Prop where
  not_array : ∀ items, json.loads text ≠ .value (.arr items)
  readable : LooksLikeJson text → ∀ detail, json.loads text ≠ .failed detail

/-! ### The attempts -/

/-- The attempt asks for another one. -/
def retried : Except HttpError Response → Bool
  | .ok _ => false
  | .error error => isTransientHttp error

theorem retrying_spec (attempt : Nat → Except HttpError Response) (left index : Nat) :
    ∃ last, retrying attempt left index = (last + 1, attempt last) ∧
      index ≤ last ∧ last ≤ index + left ∧
      (∀ earlier, index ≤ earlier → earlier < last → retried (attempt earlier) = true) ∧
      (last = index + left ∨ retried (attempt last) = false) := by
  induction left generalizing index with
  | zero =>
      refine ⟨index, rfl, Nat.le_refl _, Nat.le_refl _, ?_, Or.inl rfl⟩
      intro earlier first before
      exact absurd before (Nat.not_lt.mpr first)
  | succ left ih =>
      cases again : retried (attempt index) with
      | false =>
          refine ⟨index, ?_, Nat.le_refl _, Nat.le_add_right _ _, ?_, Or.inr again⟩
          · rw [retrying]
            cases result : attempt index with
            | ok response => rfl
            | error error =>
                rw [result] at again
                exact if_neg (Bool.eq_false_iff.mp again)
          · intro earlier first before
            exact absurd before (Nat.not_lt.mpr first)
      | true =>
          obtain ⟨last, ended, first, allowed, before, final⟩ := ih (index + 1)
          refine ⟨last, ?_, by omega, by omega, ?_, ?_⟩
          · rw [← ended, retrying]
            cases result : attempt index with
            | ok response =>
                rw [result] at again
                cases again
            | error error =>
                rw [result] at again
                exact if_pos again
          · intro earlier low high
            rcases Nat.lt_or_eq_of_le low with later | same
            · exact before earlier later high
            · rw [← same]
              exact again
          · rcases final with reached | settled
            · exact Or.inl (by omega)
            · exact Or.inr settled

theorem retried_doRequest (outcome : Outcome) :
    retried (doRequest outcome) = outcome.isTransient := by
  cases outcome with
  | response got =>
      rw [doRequest]
      by_cases failing : got.statusCode = 429 ∨ 500 ≤ got.statusCode
      · rw [if_pos failing, Outcome.isTransient, decide_eq_true failing]
        change decide (CallError.classifyHttp got.statusCode = .transient) = true
        rw [CallError.classifyHttp, if_pos failing]
        rfl
      · rw [if_neg failing, Outcome.isTransient, decide_eq_false failing]
        rfl
  | timeout detail => rfl
  | connectionError detail => rfl
  | requestError detail => rfl
  | other detail => rfl

theorem execute_of_prepared (json : JsonLoads) (settings : HttpSettings)
    {config : HTTPRequestNodeConfig} {rendered : Rendered} (pinnedIp : Option String)
    (outcomes : Nat → Outcome) {body : Option RequestBody}
    (prepared : prepareBody json config rendered.body = .ok body) :
    ∃ last, Decisive outcomes (config.retries settings) last ∧
      execute json settings config rendered (.ok pinnedIp) outcomes =
        (List.replicate (last + 1) (requestOf config rendered pinnedIp body),
          settle config rendered (doRequest (outcomes last))) := by
  obtain ⟨last, ended, _, allowed, before, final⟩ :=
    retrying_spec (fun index => doRequest (outcomes index)) (config.retries settings) 0
  rw [Nat.zero_add] at allowed final
  refine ⟨last, ⟨allowed, ?_, ?_⟩, ?_⟩
  · intro earlier early
    rw [← retried_doRequest]
    exact before earlier (Nat.zero_le _) early
  · rw [← retried_doRequest]
    exact final
  · rw [execute]
    dsimp only
    rw [prepared]
    dsimp only
    rw [ended]

theorem Decisive.unique {outcomes : Nat → Outcome} {retries first second : Nat}
    (one : Decisive outcomes retries first) (other : Decisive outcomes retries second) :
    first = second := by
  by_contra apart
  rcases Nat.lt_or_gt_of_ne apart with less | less
  · have again := other.before first less
    rcases one.final with reached | settled
    · have := other.allowed
      omega
    · rw [settled] at again
      cases again
  · have again := one.before second less
    rcases other.final with reached | settled
    · have := one.allowed
      omega
    · rw [settled] at again
      cases again

/-! ### What is sent and what is answered -/

theorem hasJson_body {response : Response} (kind : response.hasJson = true) :
    parseResponseBody response = .ok (bodyOf response) ↔
      ∀ detail, response.json ≠ .failed detail := by
  rw [parseResponseBody, bodyOf, if_pos kind, if_pos kind]
  cases response.json with
  | value value => exact ⟨fun _ _ => nofun, fun _ => rfl⟩
  | decodeError => exact ⟨fun _ _ => nofun, fun _ => rfl⟩
  | failed detail => exact ⟨nofun, fun never => absurd rfl (never detail)⟩

theorem parseResponseBody_iff (response : Response) :
    parseResponseBody response = .ok (bodyOf response) ↔ Readable response := by
  rw [Readable]
  cases kind : response.hasJson with
  | true =>
      rw [hasJson_body kind]
      exact ⟨fun readable _ => readable, fun readable => readable rfl⟩
  | false =>
      rw [parseResponseBody, bodyOf, kind]
      exact ⟨fun _ => nofun, fun _ => rfl⟩

theorem outputOf_body (config : HTTPRequestNodeConfig) (rendered : Rendered) (response : Response)
    (body expected : ResponseBody) (ok : Bool) :
    (Except.ok (outputOf config rendered response body ok) : Except NodeFailure HttpOutput) =
        .ok (outputOf config rendered response expected ok) ↔
      (Except.ok body : Except String ResponseBody) = .ok expected := by
  constructor
  · intro same
    have bodies := congrArg HttpOutput.body (Except.ok.inj same)
    exact congrArg Except.ok bodies
  · intro same
    rw [Except.ok.inj same]

theorem settle_answers (config : HTTPRequestNodeConfig) (rendered : Rendered) (outcome : Outcome) :
    Answers config rendered (settle config rendered (doRequest outcome)) outcome ↔
      ∀ response, outcome = .response response → Readable response := by
  cases outcome with
  | response got =>
      have each : (∀ response, Outcome.response got = .response response → Readable response) ↔
          Readable got := by
        refine ⟨fun all => all got rfl, ?_⟩
        intro readable response same
        cases same
        exact readable
      rw [each, ← parseResponseBody_iff, Answers, doRequest]
      by_cases failing : got.statusCode = 429 ∨ 500 ≤ got.statusCode
      · have high : ¬ got.statusCode < 400 := by omega
        rw [if_pos failing, settle, decide_eq_false high]
        cases parseResponseBody got with
        | ok body => exact outputOf_body config rendered got body _ false
        | error detail => exact ⟨nofun, nofun⟩
      · rw [if_neg failing, settle]
        cases parseResponseBody got with
        | ok body => exact outputOf_body config rendered got body _ _
        | error detail => exact ⟨nofun, nofun⟩
  | timeout detail => exact ⟨fun _ _ => nofun, fun _ => rfl⟩
  | connectionError detail => exact ⟨fun _ _ => nofun, fun _ => rfl⟩
  | requestError detail => exact ⟨fun _ _ => nofun, fun _ => rfl⟩
  | other detail => exact ⟨fun _ _ => nofun, fun _ => rfl⟩

theorem prepareBody_error {json : JsonLoads} {config : HTTPRequestNodeConfig} {text detail : String}
    (failed : prepareBody json config text = .error detail) :
    config.hasBody = true ∧ config.method.sendsBody = true ∧ LooksLikeJson text ∧
      json.loads text = .failed detail := by
  rw [prepareBody] at failed
  by_cases sends : config.hasBody = true ∧ config.method.sendsBody = true
  · rw [if_pos sends] at failed
    by_cases looks : LooksLikeJson text
    · rw [if_pos looks] at failed
      refine ⟨sends.1, sends.2, looks, ?_⟩
      cases reading : json.loads text with
      | value value =>
          rw [reading] at failed
          cases failed
      | decodeError =>
          rw [reading] at failed
          cases failed
      | failed reason =>
          rw [reading] at failed
          cases failed
          rfl
    · rw [if_neg looks] at failed
      cases failed
  · rw [if_neg sends] at failed
    cases failed

theorem not_get_of_sendsBody {method : HttpMethod} (sends : method.sendsBody = true) :
    method ≠ .get := by
  rintro rfl
  cases sends

theorem requestOf_carries {json : JsonLoads} {config : HTTPRequestNodeConfig} {rendered : Rendered}
    (pinnedIp : Option String) {body : Option RequestBody} (has : config.hasBody = true)
    (sends : config.method.sendsBody = true)
    (prepared : prepareBody json config rendered.body = .ok body) :
    Carries json rendered.body (requestOf config rendered pinnedIp body) ↔
      ∀ items, json.loads rendered.body ≠ .value (.arr items) := by
  have notGet := not_get_of_sendsBody sends
  rw [prepareBody, if_pos ⟨has, sends⟩] at prepared
  rw [Carries]
  by_cases looks : LooksLikeJson rendered.body
  · rw [if_pos looks] at prepared
    cases reading : json.loads rendered.body with
    | value value =>
        rw [reading] at prepared
        cases prepared
        obtain ⟨fields, rfl⟩ | ⟨items, rfl⟩ := json.opened rendered.body value looks reading
        · refine ⟨fun _ _ => nofun, fun _ => ?_⟩
          exact ⟨if_pos notGet, rfl⟩
        · constructor
          · intro carried
            cases carried.1
          · intro never
            exact absurd rfl (never items)
    | decodeError =>
        rw [reading] at prepared
        cases prepared
        exact ⟨fun _ _ => nofun, fun _ => ⟨rfl, if_pos notGet⟩⟩
    | failed detail =>
        rw [reading] at prepared
        cases prepared
  · rw [if_neg looks] at prepared
    cases prepared
    have raw : (requestOf config rendered pinnedIp (some (.text rendered.body))).json = none ∧
        (requestOf config rendered pinnedIp (some (.text rendered.body))).content =
          some rendered.body := ⟨rfl, if_pos notGet⟩
    cases reading : json.loads rendered.body with
    | decodeError => exact ⟨fun _ _ => nofun, fun _ => raw⟩
    | failed detail => exact ⟨fun _ _ => nofun, fun _ => raw⟩
    | value value =>
        cases value with
        | obj fields => exact absurd (Or.inl (json.object_starts _ fields reading)) looks
        | arr items => exact absurd (Or.inr (json.array_starts _ items reading)) looks
        | null => exact ⟨fun _ _ => nofun, fun _ => raw⟩
        | bool flag => exact ⟨fun _ _ => nofun, fun _ => raw⟩
        | int number => exact ⟨fun _ _ => nofun, fun _ => raw⟩
        | number number => exact ⟨fun _ _ => nofun, fun _ => raw⟩
        | str text => exact ⟨fun _ _ => nofun, fun _ => raw⟩

theorem replicate_carries {json : JsonLoads} {text : String} {request : HttpRequest} (last : Nat) :
    (∀ sent ∈ List.replicate (last + 1) request, Carries json text sent) ↔
      Carries json text request := by
  constructor
  · intro all
    exact all request (List.mem_replicate.mpr ⟨Nat.succ_ne_zero last, rfl⟩)
  · intro carried sent member
    rw [List.eq_of_mem_replicate member]
    exact carried

/-- A run that is blocked makes no request; any other one delivers exactly when its body can be
sent and the response that decides can be read. -/
theorem delivers_iff (json : JsonLoads) (settings : HttpSettings) (config : HTTPRequestNodeConfig)
    (rendered : Rendered) (resolved : Except String (Option String)) (outcomes : Nat → Outcome) :
    Delivers json settings config rendered resolved outcomes
        (execute json settings config rendered resolved outcomes) ↔
      ∀ pinnedIp, resolved = .ok pinnedIp →
        (config.hasBody = true → config.method.sendsBody = true → Sendable json rendered.body) ∧
        ∀ index, Decisive outcomes (config.retries settings) index →
          ∀ response, outcomes index = .response response → Readable response := by
  cases resolved with
  | error detail =>
      refine ⟨fun _ _ => nofun, fun _ => ?_⟩
      exact ⟨fun _ => nofun, fun _ _ _ => nofun, Nat.zero_le _, fun _ => nofun, fun _ => nofun⟩
  | ok pinnedIp =>
      cases prepared : prepareBody json config rendered.body with
      | error detail =>
          obtain ⟨has, sends, looks, failed⟩ := prepareBody_error prepared
          have run : (execute json settings config rendered (.ok pinnedIp) outcomes).1 = [] := by
            rw [execute]
            dsimp only
            rw [prepared]
          constructor
          · intro delivered
            exact absurd run (delivered.attempted pinnedIp rfl)
          · intro clear
            exact absurd failed (((clear pinnedIp rfl).1 has sends).readable looks detail)
      | ok body =>
          obtain ⟨last, decisive, run⟩ :=
            execute_of_prepared json settings pinnedIp outcomes prepared
          have count : (List.replicate (last + 1)
              (requestOf config rendered pinnedIp body)).length = last + 1 :=
            List.length_replicate
          rw [run]
          constructor
          · rintro delivered ip same
            refine ⟨fun has sends => ⟨?_, ?_⟩, ?_⟩
            · rw [← requestOf_carries pinnedIp has sends prepared]
              exact (replicate_carries last).mp (delivered.payload has sends)
            · intro looks detail failed
              rw [prepareBody, if_pos ⟨has, sends⟩, if_pos looks, failed] at prepared
              cases prepared
            · intro index decides
              rw [decides.unique decisive, ← settle_answers config rendered]
              exact delivered.answer last count
          · intro clear
            obtain ⟨sendable, readable⟩ := clear pinnedIp rfl
            refine ⟨fun _ _ => nofun, ?_, ?_, ?_, ?_⟩
            · intro has sends
              rw [replicate_carries, requestOf_carries pinnedIp has sends prepared]
              exact (sendable has sends).not_array
            · rw [count]
              exact Nat.succ_le_succ decisive.allowed
            · intro index early
              rw [count] at early
              exact decisive.before index (Nat.lt_of_succ_lt_succ early)
            · intro final ended
              rw [count] at ended
              cases ended
              rw [settle_answers]
              exact readable last decisive

/-! ### A body that is an array -/

def oneArray : JsonLoads where
  loads text := if text = "[1]" then .value (.arr [.int 1]) else .decodeError
  object_starts := by
    intro text fields
    split
    · exact nofun
    · exact nofun
  array_starts := by
    intro text items
    split
    · rename_i same
      rw [same]
      intro _
      decide
    · exact nofun
  opened := by
    intro text value _
    split
    · intro same
      cases same
      exact Or.inr ⟨_, rfl⟩
    · exact nofun

def accepted : Response where
  statusCode := 200
  headers := Dict.empty
  json := .decodeError
  text := ""

theorem array_not_sent :
    ¬ Delivers oneArray {} { url := "http://example.com", method := .post, body := some "[1]" }
      { url := "http://example.com", body := "[1]" } (.ok none) (fun _ => .response accepted)
      (execute oneArray {} { url := "http://example.com", method := .post, body := some "[1]" }
        { url := "http://example.com", body := "[1]" } (.ok none)
        (fun _ => .response accepted)) := by
  intro delivered
  have carried := delivered.payload rfl rfl _ (List.mem_cons_self ..)
  cases carried.1

end Assemblix.HttpRequestNode
