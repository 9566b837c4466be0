import MevRelay.Relay.System

/-!
# Surroundings

Definite answers of the beacon node and the auth service turn a schedule of
requests into a run.  A stand-in for the crates lets such runs be computed.
-/

namespace MevRelay

open Concurrent Ssz

structure Surroundings where
  validateApiKey : String → Bool
  getKnownValidator : BlsPublicKey → Option KnownValidatorResponse
  proposerDuties : UInt64 → Option (List ProposerDutiesData)

/-- With definite surroundings every call has a definite answer. -/
def Surroundings.responder (surroundings : Surroundings) : Responder exec where
  respond c store :=
    match c with
    | .storage c => c.apply store
    | .validateApiKey apiKey => (surroundings.validateApiKey apiKey, store)
    | .getKnownValidator pubkey => (surroundings.getKnownValidator pubkey, store)
    | .proposerDuties epoch => (surroundings.proposerDuties epoch, store)
    | .spawnRefresh _ => ((), store)
    | .publishBlock _ _ => ((), store)
  sound := by
    rintro (c | _ | _ | _ | _ | _) store
    case storage => exact exec_storage.mpr ⟨rfl, rfl⟩
    all_goals rfl

section Clients

variable [Crates]

def publicKeyOf (secretKey : Blst.SecretKey) : BlsPublicKey := ⟨Crates.skToPk secretKey⟩

def signWith {Message : Type} [TreeHash Message] (secretKey : Blst.SecretKey) (domain : Hash256)
    (message : Message) : BlsSignature :=
  .fromPoint (Crates.sign secretKey (signingRoot message domain)) false

theorem verify_signWith {Message : Type} [TreeHash Message]
    (verifies : ∀ secretKey message,
      Crates.verify (Crates.sign secretKey message) message (Crates.skToPk secretKey) = true)
    (secretKey : Blst.SecretKey) (domain : Hash256) (message : Message) :
    (signWith secretKey domain message).verify (publicKeyOf secretKey)
      (signingRoot message domain) = true :=
  verifies _ _

end Clients

/-- The bytes of a stand-in signature, which are never all zeros. -/
def sealedBytes (key : FixedVector UInt8 48) (message : Hash256) : FixedVector UInt8 96 :=
  .resize 0 (key.toList ++ message.bytes.toList ++ [1])

/-- A stand-in for the crates: a key is its secret padded, and a signature is
the key followed by the message. -/
@[reducible]
def standIn : Crates where
  hash32Concat left _ := left
  publicKeyFromBytes bytes :=
    match FixedVector.new bytes with
    | some compressed => .ok ⟨compressed⟩
    | none => .error .badEncoding
  signatureFromBytes bytes :=
    if bytes.all (· = 0) then .error .badEncoding
    else
      match FixedVector.new bytes with
      | some compressed => .ok ⟨compressed⟩
      | none => .error .badEncoding
  verify signature message key := signature.compressed = sealedBytes key.compressed message
  skToPk secretKey := ⟨.resize 0 secretKey.bytes.toList⟩
  sign secretKey message := ⟨sealedBytes (.resize 0 secretKey.bytes.toList) message⟩
  u256FromStr text :=
    if text.toList ≠ [] ∧ text.toList.all Char.isDigit then
      some (BitVec.ofNat 256
        (text.toList.foldl (fun number digit => 10 * number + (digit.toNat - '0'.toNat)) 0))
    else none

theorem standIn_verify_sign (secretKey : Blst.SecretKey) (message : Hash256) :
    standIn.verify (standIn.sign secretKey message) message (standIn.skToPk secretKey) = true :=
  decide_eq_true rfl

/-! ## One relay with one proposer on duty -/

namespace Demo

attribute [local instance] standIn

def secretKey (number : UInt8) : Blst.SecretKey := ⟨.replicate number⟩

def pubkey (number : UInt8) : BlsPublicKey := publicKeyOf (secretKey number)

def hash (number : UInt8) : B256 := ⟨.replicate number⟩

def attributes : PayloadAttributes := ⟨1, hash 1, hash 4⟩

/-- A relay with head slot 0 that lets the builder 2 submit. -/
def config : Config where
  slot := ⟨0⟩
  payloadAttributes := attributes
  wlistBuilders := [pubkey 2]
  forkData := ⟨⟨.replicate 0, .zero⟩, ⟨.replicate 1, .zero⟩⟩
  secretKey := secretKey 9
  slotsPerEpoch := 32

/-- All validators are active, and proposer 3 is on duty for slot 1. -/
def surroundings : Surroundings where
  validateApiKey _ := true
  getKnownValidator _ := some ⟨"active_ongoing"⟩
  proposerDuties epoch :=
    some (if epoch = 0 then [⟨1, (pubkey 3).serialize, 7⟩] else [])

def registration (number : UInt8) : ValidatorRegistration :=
  let message : ValidatorRegistrationMessage := ⟨⟨.replicate 0⟩, 30000000, 0, pubkey number⟩
  ⟨message, signWith (secretKey number) config.forkData.computeBuilderDomain message⟩

def duty : Validator := ⟨1, 7, registration 3⟩

def payload (blockHash : UInt8) : ExecutionPayload where
  parentHash := hash 1
  feeRecipient := ⟨.replicate 0⟩
  stateRoot := hash 0
  receiptsRoot := hash 0
  logsBloom := .replicate 0
  prevRandao := hash 4
  blockNumber := 1
  gasLimit := 30000000
  gasUsed := 0
  timestamp := 0
  extraData := .empty
  baseFeePerGas := 7
  blockHash := hash blockHash
  transactions := .empty
  withdrawals := .empty
  blobGasUsed := 0
  excessBlobGas := 0

/-- A bid of builder 2 for proposer 3, signed, with the given parent, payload and blobs. -/
def bidWith (value : U256) (parentHash blockHash : UInt8) (blobs : Ssz.UncheckedList Blob 4096) :
    BidSubmission :=
  let trace : BidTrace := ⟨1, hash parentHash, hash blockHash, pubkey 2, pubkey 3, ⟨.replicate 0⟩,
    30000000, 0, value⟩
  .new trace (payload blockHash) ⟨[], .empty, blobs⟩
    (signWith (secretKey 2) config.forkData.computeBuilderDomain trace)

def bid (value : U256) (blockHash : UInt8) : BidSubmission := bidWith value 1 blockHash .empty

def signedHeader (bid : BidSubmission) : SignedHeader :=
  let message : Header :=
    ⟨.ofPayload bid.executionPayload, .empty, bid.message.value, config.signer.publicKey⟩
  ⟨message, config.signer.sign message⟩

/-- A blinded block over a header, signed by proposer 3 with the index of its duty. -/
def blindedBlock (header : ExecutionPayloadHeader) : SignedBlindedBlock :=
  let empty : BlsSignature := ⟨none, false⟩
  let message : BlindedBlock := ⟨1, 7, hash 0, hash 0, {
    randaoReveal := empty
    eth1Data := ⟨hash 0, 0, hash 0⟩
    graffiti := hash 0
    proposerSlashings := .empty
    attesterSlashings := .empty
    attestations := .empty
    deposits := .empty
    voluntaryExits := .empty
    syncAggregate := ⟨⟨.replicate false⟩, empty⟩
    executionPayloadHeader := header
    blsToExecutionChanges := .empty
    blobKzgCommitments := .empty }⟩
  ⟨message, signWith (secretKey 3) config.forkData.computeProposerDomain message⟩

def setup : List Request := [.postValidators "" [registration 3], .refreshDuties ⟨0⟩]

/-- The calls of the two tasks of the setup. -/
def setupCalls : List Nat := [0, 0, 0, 0, 1, 1, 1, 1, 1]

def serve (requests : List Request) : RelayHistory × InMemoryStorage :=
  surroundings.responder.serve (handler config) config.init (setup ++ requests)

theorem serve_serial (requests : List Request) :
    SerialFrom config config.init (serve requests).1 (serve requests).2 :=
  surroundings.responder.serve_serial (handler config) config.init _

def complete (request : Request) (store : InMemoryStorage) :
    Completed Calls Request Reply InMemoryStorage :=
  surroundings.responder.complete (handler config) request store

theorem complete_serial {history : RelayHistory} {store : InMemoryStorage}
    (serial : SerialFrom config config.init history store) (request : Request) :
    SerialFrom config config.init (history ++ [complete request store])
      (complete request store).after :=
  surroundings.responder.complete_serial (handler config) serial request

/-- From some store, requests arrive and then their tasks make calls in the given order. -/
def playFrom (init : InMemoryStorage) (requests : List Request) (tasks : List Nat) :
    Played Calls Request Reply InMemoryStorage :=
  surroundings.responder.play (handler config) init (requests.map .arrive ++ tasks.map .step)

theorem playFrom_run (init : InMemoryStorage) (requests : List Request) (tasks : List Nat) :
    RunFrom config init (playFrom init requests tasks).trace
      (playFrom init requests tasks).world :=
  surroundings.responder.play_run (handler config) init _

/-- After the setup, whose tasks are 0 and 1, further requests race from task 2 on. -/
abbrev play (requests : List Request) (tasks : List Nat) :
    Played Calls Request Reply InMemoryStorage :=
  playFrom config.init (setup ++ requests) (setupCalls ++ tasks)

end Demo

end MevRelay
