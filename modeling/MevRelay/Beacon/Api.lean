import MevRelay.Beacon.Service
import MevRelay.Primitives.Blocks

/-!
# The beacon node's REST interface

What the methods of the interface send to the beacon node over HTTP, and what
they make of its responses.
-/

namespace MevRelay

open Concurrent Ssz

inductive HttpMethod where
  | get
  | post
  deriving DecidableEq

structure HttpRequest where
  method : HttpMethod
  url : String
  headers : List (String × String)
  body : List UInt8
  deriving DecidableEq

/-- A response, of which the body may fail to arrive. -/
structure HttpResponse where
  status : Nat
  body : Except String (List UInt8)

def HttpResponse.isSuccess (response : HttpResponse) : Bool :=
  200 ≤ response.status && response.status < 300

/-- Requests over HTTP may go without a response. -/
abbrev HttpCalls : Signature := ⟨HttpRequest, fun _ => Except String HttpResponse⟩

structure ApiErrorResponse where
  code : UInt16
  message : String

/-- What the crates make of JSON. -/
class JsonCrates where
  decode : (method : BeaconMethod) → List UInt8 → Except String method.Output
  decodeError : List UInt8 → Except String ApiErrorResponse
  encode : SignedBeaconBlockContent → List UInt8

def ForkName.toString : ForkName → String
  | .base => "phase0"
  | .altair => "altair"
  | .merge => "bellatrix"
  | .capella => "capella"
  | .deneb => "deneb"

/-- The hex digits of bytes. -/
def hexDigits (bytes : List UInt8) : List Char :=
  bytes.flatMap fun byte => [Nat.digitChar (byte.toNat / 16), Nat.digitChar (byte.toNat % 16)]

def BlsPublicKey.toString (key : BlsPublicKey) : String :=
  .ofList ('0' :: 'x' :: hexDigits key.serialize)

/-- Beacon api entry point. -/
structure BeaconNodeApi where
  url : String

namespace BeaconNodeApi

/-- Returns the sync status of a beacon node. -/
def syncStatusPath : String := "eth/v1/node/syncing"

/-- Returns the proposer duties of the beacon node for a given epoch. -/
def proposerDutiesPath : String := "eth/v1/validator/duties/proposer/"

def publishBlockPath : String := "eth/v1/beacon/blocks"

def getForkDataPath : String := "eth/v2/debug/beacon/states/head"

/-- Returns a validator by its public key. -/
def getValidatorPath : String := "eth/v1/beacon/states/head/validators/"

variable (api : BeaconNodeApi)

def getRequest (path : String) : HttpRequest := ⟨.get, api.url ++ path, [], []⟩

section Responses

variable [JsonCrates]

/-- The value in the response to a GET request, if its status is one of success. -/
def readResponse (method : BeaconMethod) (response : HttpResponse) : Except String method.Output :=
  if response.isSuccess then response.body >>= JsonCrates.decode method
  else do
    let error ← response.body >>= JsonCrates.decodeError
    .error s!"API error: code {error.code}, message: {error.message}"

/-- Centralized method to perform GET requests. -/
def getApiResponse (method : BeaconMethod) (path : String) :
    Program HttpCalls (Except String method.Output) :=
  .call (api.getRequest path) fun
    | .error error => .done (.error error)
    | .ok response => .done (readResponse method response)

def postRequest (path : String) (body : SignedBeaconBlockContent)
    (submissionType : SubmissionType) : HttpRequest :=
  let headers := [("Eth-Consensus-Version", ForkName.deneb.toString)]
  match submissionType with
  | .json => ⟨.post, api.url ++ path, headers ++ [("Content-Type", "application/json")],
      JsonCrates.encode body⟩
  | .ssz => ⟨.post, api.url ++ path, headers ++ [("Content-Type", "application/octet-stream")],
      asSszBytes body⟩

/-- Centralized method to perform POST requests.  The response is not looked at. -/
def postApiResponse (path : String) (body : SignedBeaconBlockContent)
    (submissionType : SubmissionType) : Program HttpCalls (Except String Unit) :=
  .call (api.postRequest path body submissionType) fun
    | .error error => .done (.error error)
    | .ok _ => .done (.ok ())

def syncStatus : Program HttpCalls (Except String BeaconSyncStatusResponse) :=
  api.getApiResponse .syncStatus syncStatusPath

def proposerDuties (epoch : UInt64) : Program HttpCalls (Except String (List ProposerDutiesData)) :=
  api.getApiResponse .proposerDuties (proposerDutiesPath ++ toString epoch)

def publishBlock (block : SignedBeaconBlockContent) (submissionType : SubmissionType) :
    Program HttpCalls (Except String Unit) :=
  api.postApiResponse publishBlockPath block submissionType

def getForkData : Program HttpCalls (Except String GetForkResponse) :=
  api.getApiResponse .getForkData getForkDataPath

def getKnownValidator (pubkey : BlsPublicKey) :
    Program HttpCalls (Except String KnownValidatorResponse) :=
  api.getApiResponse .getKnownValidator (getValidatorPath ++ pubkey.toString)

/-- Awaiting a future calls its method. -/
def await : {method : BeaconMethod} → BoxedFuture method →
    Program HttpCalls (Except String method.Output)
  | _, .syncStatus => api.syncStatus
  | _, .getForkData => api.getForkData
  | _, .getKnownValidator pubkey => api.getKnownValidator pubkey
  | _, .proposerDuties epoch => api.proposerDuties epoch
  | _, .publishBlock block submissionType => api.publishBlock block submissionType

/-- The one request that awaiting a future makes. -/
def request : {method : BeaconMethod} → BoxedFuture method → HttpRequest
  | _, .syncStatus => api.getRequest syncStatusPath
  | _, .getForkData => api.getRequest getForkDataPath
  | _, .getKnownValidator pubkey => api.getRequest (getValidatorPath ++ pubkey.toString)
  | _, .proposerDuties epoch => api.getRequest (proposerDutiesPath ++ toString epoch)
  | _, .publishBlock block submissionType => api.postRequest publishBlockPath block submissionType

/-- What awaiting a future makes of what it gets for its request. -/
def result : (method : BeaconMethod) → Except String HttpResponse → Except String method.Output
  | .publishBlock, reply => reply.map fun _ => ()
  | .syncStatus, reply => reply >>= readResponse .syncStatus
  | .getForkData, reply => reply >>= readResponse .getForkData
  | .getKnownValidator, reply => reply >>= readResponse .getKnownValidator
  | .proposerDuties, reply => reply >>= readResponse .proposerDuties

theorem await_eq {method : BeaconMethod} (future : BoxedFuture method) :
    api.await future = .call (api.request future) fun reply => .done (result method reply) := by
  cases future <;>
  · refine congrArg (Program.call _) (funext fun reply => ?_)
    cases reply <;> rfl

variable {api}

theorem readResponse_eq_ok {method : BeaconMethod} {response : HttpResponse}
    {value : method.Output} :
    readResponse method response = .ok value ↔ response.isSuccess = true ∧
      ∃ body, response.body = .ok body ∧ JsonCrates.decode method body = .ok value := by
  unfold readResponse
  cases success : response.isSuccess with
  | true => simp [except_bind_eq_ok]
  | false =>
      simp only [Bool.false_eq_true, if_false, false_and, iff_false, except_bind_eq_ok]
      rintro ⟨_, _, same⟩
      cases same

/-- A value is had only from a response of success. -/
theorem result_getKnownValidator_eq_ok {reply : Except String HttpResponse}
    {known : KnownValidatorResponse} :
    result .getKnownValidator reply = .ok known ↔
      ∃ response, reply = .ok response ∧ readResponse .getKnownValidator response = .ok known :=
  except_bind_eq_ok

end Responses

end BeaconNodeApi

/-! ## Telling requests apart -/

section Apart

theorem hexDigits_injective : Function.Injective hexDigits := by
  have digits : ∀ first < 16, ∀ second < 16,
      Nat.digitChar first = Nat.digitChar second → first = second := by decide
  intro first second same
  induction first generalizing second with
  | nil =>
      cases second with
      | nil => rfl
      | cons other others => cases same
  | cons byte rest inductionHypothesis =>
      cases second with
      | nil => cases same
      | cons other others =>
          simp only [hexDigits, List.flatMap_cons, List.cons_append, List.nil_append,
            List.cons.injEq] at same
          obtain ⟨high, low, tails⟩ := same
          have byteBound := byte.toNat_lt
          have otherBound := other.toNat_lt
          have sameHigh := digits _ (by omega) _ (by omega) high
          have sameLow := digits _ (Nat.mod_lt _ (by decide)) _ (Nat.mod_lt _ (by decide)) low
          have sameByte : byte = other := by
            apply UInt8.toNat_inj.mp
            omega
          rw [sameByte, inductionHypothesis tails]

theorem BlsPublicKey.toString_injective : Function.Injective BlsPublicKey.toString := by
  intro first second same
  have digits := List.cons.inj (List.cons.inj (String.ofList_injective same)).2
  have bytes := hexDigits_injective digits.2
  obtain ⟨⟨⟨first, _⟩⟩⟩ := first
  obtain ⟨⟨⟨second, _⟩⟩⟩ := second
  cases bytes
  rfl

theorem epoch_toString_injective {first second : UInt64}
    (same : toString first = toString second) : first = second := by
  have digits : Nat.toDigits 10 first.toNat = Nat.toDigits 10 second.toNat := by
    rw [← Nat.toList_repr, ← Nat.toList_repr]
    exact congrArg String.toList same
  apply UInt64.toNat_inj.mp
  rw [← Nat.ofDigitChars_ten_toDigits (n := first.toNat), digits, Nat.ofDigitChars_ten_toDigits]

namespace BeaconNodeApi

variable (api : BeaconNodeApi)

/-- The method of the interface that a request is meant for. -/
def asked (request : HttpRequest) : BeaconMethod :=
  if request.method = .post then .publishBlock
  else
    let path := (request.url.toList.drop api.url.toList.length).take 8
    if path = "eth/v1/n".toList then .syncStatus
    else if path = "eth/v2/d".toList then .getForkData
    else if path = "eth/v1/v".toList then .proposerDuties
    else .getKnownValidator

theorem take_path (path rest : String) (long : 8 ≤ path.toList.length) :
    ((api.url ++ (path ++ rest)).toList.drop api.url.toList.length).take 8 =
      path.toList.take 8 := by
  rw [String.toList_append, List.drop_left, String.toList_append, List.take_append_of_le_length long]

variable [JsonCrates]

/-- Every request shows what it is meant for. -/
theorem asked_request {method : BeaconMethod} (future : BoxedFuture method) :
    api.asked (api.request future) = method := by
  cases future with
  | syncStatus =>
      have path := take_path api syncStatusPath "" (by decide)
      rw [String.append_empty] at path
      simp only [asked, request, getRequest, path]
      decide
  | getForkData =>
      have path := take_path api getForkDataPath "" (by decide)
      rw [String.append_empty] at path
      simp only [asked, request, getRequest, path]
      decide
  | getKnownValidator pubkey =>
      simp only [asked, request, getRequest, take_path api getValidatorPath _ (by decide)]
      decide
  | proposerDuties epoch =>
      simp only [asked, request, getRequest, take_path api proposerDutiesPath _ (by decide)]
      decide
  | publishBlock block submissionType => cases submissionType <;> rfl

section Blocks

variable [Crates] [KeyCrates]

/-- A block that is sent as SSZ is checked, and its bytes fit the offsets. -/
def Sendable : BeaconCommands → Prop
  | .publishBlock block .ssz => block.Checked ∧ (asSszBytes block).length < 2 ^ 32
  | _ => True

variable {api}

/-- The beacon node can tell all commands apart by the requests made for them,
but for blocks that have the same JSON text. -/
theorem requests_told_apart {first second : BeaconCommands} (firstSendable : Sendable first)
    (secondSendable : Sendable second)
    (same : api.request (BeaconService.future first) = api.request (BeaconService.future second)) :
    first = second ∨ ∃ block other, first = .publishBlock block .json ∧
      second = .publishBlock other .json ∧ JsonCrates.encode block = JsonCrates.encode other := by
  have method : first.method = second.method := by
    rw [← asked_request api (BeaconService.future first), same, asked_request]
  cases first with
  | syncStatus => cases second <;> first | exact .inl rfl | cases method
  | forkData => cases second <;> first | exact .inl rfl | cases method
  | proposerDuties epoch =>
      cases second with
      | proposerDuties other =>
          have urls := congrArg HttpRequest.url same
          have paths := (String.append_right_inj _).mp ((String.append_right_inj _).mp urls)
          rw [epoch_toString_injective paths]
          exact .inl rfl
      | _ => cases method
  | knownValidator pubkey =>
      cases second with
      | knownValidator other =>
          have urls := congrArg HttpRequest.url same
          have paths := (String.append_right_inj _).mp ((String.append_right_inj _).mp urls)
          rw [BlsPublicKey.toString_injective paths]
          exact .inl rfl
      | _ => cases method
  | publishBlock block submissionType =>
      cases second with
      | publishBlock other otherType =>
          have bodies := congrArg HttpRequest.body same
          have headers := congrArg HttpRequest.headers same
          cases submissionType <;> cases otherType
          case json.json => exact .inr ⟨block, other, rfl, rfl, bodies⟩
          case ssz.ssz =>
            have admissible := SignedBeaconBlockContent.admissible_iff.mpr firstSendable.1
            have otherAdmissible := SignedBeaconBlockContent.admissible_iff.mpr secondSendable.1
            rw [eq_of_asSszBytes_eq admissible otherAdmissible firstSendable.2 bodies]
            exact .inl rfl
          -- only the content types differ
          all_goals simp [request, postRequest, BeaconService.future, BeaconService.publishBlock] at headers
      | _ => cases method

end Blocks

end BeaconNodeApi

end Apart

/-! ## A stand-in for JSON -/

namespace Demo

def textBytes (text : String) : List UInt8 := text.toList.map fun character => character.toNat.toUInt8

/-- What a beacon node answers about an active validator. -/
def activeText (pubkey : BlsPublicKey) : String :=
  "\x7b\"execution_optimistic\":false,\"finalized\":true,\"data\":\x7b\"index\":\"7\"," ++
  "\"balance\":\"32000000000\",\"status\":\"active_ongoing\",\"validator\":\x7b\"pubkey\":\"" ++
  pubkey.toString ++ "\",\"withdrawal_credentials\":\"0x00\",\"effective_balance\":\"32000000000\"," ++
  "\"slashed\":false,\"activation_eligibility_epoch\":\"0\",\"activation_epoch\":\"0\"," ++
  "\"exit_epoch\":\"9\",\"withdrawable_epoch\":\"9\"\x7d\x7d\x7d"

/-- A stand-in that takes no JSON but what shows an active validator. -/
@[reducible]
def standInJson : JsonCrates where
  decode
    | .getKnownValidator, body =>
        if textBytes "\"status\":\"active_ongoing\"" <:+: body then .ok ⟨"active_ongoing"⟩
        else .error "expected value"
    | _, _ => .error "expected value"
  decodeError _ := .error "expected value"
  encode _ := []

def localNode : BeaconNodeApi := ⟨"http://127.0.0.1:3500/"⟩

end Demo

section Publications

open Demo BeaconNodeApi

attribute [local instance] compressedPoints noTexts standInJson

/-- Blocks with different signatures make different requests. -/
theorem operationsBlocks_told_apart :
    localNode.request (BeaconService.future
        (.publishBlock (operationsBlock (flaggedSignature 7)) .ssz)) ≠
      localNode.request (BeaconService.future
        (.publishBlock (operationsBlock (flaggedSignature 8)) .ssz)) := by
  have sendable : ∀ number ∈ [7, 8],
      Sendable (.publishBlock (operationsBlock (flaggedSignature number)) .ssz) := by
    intro number listed
    refine ⟨checked_operationsBlock (canonical_flaggedSignature number), ?_⟩
    rw [length_operationsBlock number listed]
    decide
  intro same
  rcases requests_told_apart (sendable 7 (by decide)) (sendable 8 (by decide)) same with
    equal | ⟨_, _, json, _⟩
  · rw [BeaconCommands.publishBlock.injEq] at equal
    have signatures := congrArg (·.signedBlock.signature) equal.1
    exact absurd signatures (by decide)
  · cases json

end Publications

end MevRelay
