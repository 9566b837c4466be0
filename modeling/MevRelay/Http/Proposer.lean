import MevRelay.Storage.Calls

/-!
# The routes for proposers

Registering validators, serving the header of the best bid, and unblinding a
signed blinded block.
-/

namespace MevRelay

open Concurrent

inductive GetHeaderError where
  | invalidSlot
  | noBidFound
  | unauthorizedGetHeader
  | conversion (error : ConversionError)
  deriving DecidableEq

def GetHeaderError.toString : GetHeaderError → String
  | .invalidSlot => "slot is too old"
  | .noBidFound => "No bid found"
  | .unauthorizedGetHeader => "Not authorized to get the header."
  | .conversion error => error.toString

inductive PostBlindedBlockErr where
  | noDutyFound
  | proposerIndexMismatch (expected actual : UInt64)
  | invalidSignature
  | noBlockFromBlockHash
  | unauthorizedSubmission
  deriving DecidableEq

def PostBlindedBlockErr.toString : PostBlindedBlockErr → String
  | .noDutyFound => "No duty found from slot."
  | .proposerIndexMismatch expected actual =>
      s!"Proposer index mismatch: expected {expected}, got {actual}."
  | .invalidSignature => "Invalid signature."
  | .noBlockFromBlockHash => "Could not find blinded block response for block hash."
  | .unauthorizedSubmission => "Not authorized to submit the blinded block."

/-- The rejection of a request whose API key is not valid. -/
inductive PostValidatorsError where
  | invalidApiKey
  deriving DecidableEq

namespace Http

variable [Crates]

/-- Route for GET `/eth/v1/builder/header/{slot}/{parent_hash}/{pubkey}`. -/
def getHeader (signer : BlsSigner) (slot : UInt64) (parentHash : B256) (pubkey : BlsPublicKey) :
    Program Calls (Outcome GetHeaderError (Versioned SignedHeader)) := do
  if (← storage (.readValidatorRegistration pubkey)).isNone then
    return .err .unauthorizedGetHeader
  let currentSlot ← storage .readHeadSlot
  if !currentSlot.isNextSlot slot then
    return .err .invalidSlot
  let some bid ← storage (.readBestBid slot parentHash pubkey)
    | return .err .noBidFound
  match SignedHeader.tryFrom bid signer with
  | .panicked => return .panicked
  | .err error => return .err (.conversion error)
  | .ok signedHeader => return .ok ⟨.deneb, signedHeader⟩

/-- Route for POST `/eth/v1/builder/blinded_blocks`. -/
def postBlindedBlocks (block : SignedBlindedBlock) :
    Program Calls (Outcome PostBlindedBlockErr (Versioned BlindedBlockResponse)) := do
  let some duty ← storage (.findDutyBySlot block.message.slot)
    | return .err .noDutyFound
  let proposerIndex := block.message.proposerIndex
  if duty.validatorIndex ≠ proposerIndex then
    return .err (.proposerIndexMismatch duty.validatorIndex proposerIndex)
  let forkData ← storage .forkData
  let domain := forkData.computeProposerDomain
  let proposerPubkey := duty.entry.message.pubkey
  if (← storage (.readValidatorRegistration proposerPubkey)).isNone then
    return .err .unauthorizedSubmission
  -- The root that is signed is hashed here, whatever lists came with the block.
  if ¬ block.message.body.Hashable then
    return .panicked
  if !block.signature.verify proposerPubkey (signingRoot block.message domain) then
    return .err .invalidSignature
  -- The response is found by the proposer alone; the signed header is not consulted.
  let some response ← storage (.readBlindedBlockResponse proposerPubkey)
    | return .err .noBlockFromBlockHash
  let signedBeaconBlock := SignedBeaconBlockContent.new response.executionPayload block.message
    block.signature response.blobsBundle
  let blockHash := signedBeaconBlock.blockHash
  call (.publishBlock signedBeaconBlock .ssz)
  storage (.setDeliveredBlocks blockHash)
  return .ok ⟨.deneb, response⟩

/-- The entries of a batch to install.  Entries of unknown or inactive
validators and entries with an invalid signature are skipped. -/
def collectRegistrations (domain : Hash256) :
    List ValidatorRegistration → ValidatorRegistrations → Program Calls ValidatorRegistrations
  | [], toRegister => return toRegister
  | registration :: rest, toRegister => do
      let pubkey := registration.message.pubkey
      match ← call (.getKnownValidator pubkey) with
      | none => collectRegistrations domain rest toRegister
      | some validator =>
          if !validator.isActive then
            collectRegistrations domain rest toRegister
          else if !registration.signature.verify pubkey
              (signingRoot registration.message domain) then
            collectRegistrations domain rest toRegister
          else
            collectRegistrations domain rest (toRegister.insert pubkey registration)

/-- Whether the answer about its validator and its signature make an entry valid. -/
def validEntry (domain : Hash256) (registration : ValidatorRegistration)
    (known : Option KnownValidatorResponse) : Bool :=
  known.any KnownValidatorResponse.isActive &&
    registration.signature.verify registration.message.pubkey
      (signingRoot registration.message domain)

theorem collectRegistrations_cons (domain : Hash256) (registration : ValidatorRegistration)
    (rest : List ValidatorRegistration) (toRegister : ValidatorRegistrations) :
    collectRegistrations domain (registration :: rest) toRegister =
      .call (.getKnownValidator registration.message.pubkey)
        fun known : Option KnownValidatorResponse =>
          collectRegistrations domain rest
            (if validEntry domain registration known
              then toRegister.insert registration.message.pubkey registration else toRegister) := by
  simp only [collectRegistrations, Program.call_bind, Program.done_bind]
  congr 1
  funext known
  cases known with
  | none => rfl
  | some validator =>
      cases active : validator.isActive with
      | false => simp [active, validEntry]
      | true =>
          cases verified : registration.signature.verify registration.message.pubkey
            (signingRoot registration.message domain) <;> simp [active, verified, validEntry]

/-- Route for POST `/eth/v1/builder/validators`.  What was collected from the
batch becomes the whole map of registrations. -/
def postValidators (apiKey : String) (registrations : List ValidatorRegistration) :
    Program Calls (Except PostValidatorsError Unit) := do
  if !(← call (.validateApiKey apiKey)) then
    return .error .invalidApiKey
  let forkData ← storage .forkData
  let toRegister ← collectRegistrations forkData.computeBuilderDomain registrations ∅
  storage (.setValidatorRegistrations toRegister)
  return .ok ()

end Http

end MevRelay
