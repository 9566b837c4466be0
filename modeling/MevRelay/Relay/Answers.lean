import MevRelay.Relay.Checks
import MevRelay.Relay.Surroundings

/-!
# Answered submissions

A block submission over gRPC ends with a response or a status unless one of two
conversions panics.
-/

namespace MevRelay

open Concurrent

theorem B256.tryFrom_ok_iff {bytes : List UInt8} :
    (∃ hash, B256.tryFrom bytes = .ok hash) ↔ bytes.length = 32 := by
  by_cases exactly : bytes.length = 32 <;>
    simp [tryFrom, exactBytes, exactly, Functor.map, Except.map]

section Conversions

variable [Crates]

/-- All three parts are present, and the trace converts up to its public keys,
one of which encodes no point. -/
structure ReachesBadKey (request : Gen.SubmitBlockRequest) (trace : Gen.BidTrace) : Prop where
  bidTrace : request.bidTrace = some trace
  executionPayload : request.executionPayload.isSome = true
  blobsBundle : request.blobsBundle.isSome = true
  value : (Crates.u256FromStr trace.value).isSome = true
  parentHash : trace.parentHash.length = 32
  blockHash : trace.blockHash.length = 32
  badKey : (Crates.publicKeyFromBytes trace.builderPubkey).isOk = false ∨
    (Crates.publicKeyFromBytes trace.proposerPubkey).isOk = false

/-- The trace and the payload convert and pass every check against the store
that comes before the signature, which encodes no point. -/
structure ReachesBadSignature (request : Gen.SubmitBlockRequest) (store : InMemoryStorage)
    (bid : BidTrace) (executionPayload : ExecutionPayload) : Prop where
  bidTrace : ∃ trace, request.bidTrace = some trace ∧ BidTrace.tryFrom trace = .ok bid
  payload : ∃ payload, request.executionPayload = some payload ∧
    ExecutionPayload.tryFrom payload = .ok executionPayload
  blobsBundle : request.blobsBundle.isSome = true
  higher : ∀ held,
    store.bestBidPerSlot.lookup ⟨bid.slot, bid.parentHash, bid.proposerPubkey⟩ = some held →
    held.message.value < bid.value
  nonzero : bid.value ≠ 0
  whitelisted : bid.builderPubkey ∈ store.wlistBuilders
  nextSlot : store.slot.isNextSlot bid.slot = true
  attributes : store.payloadAttributes.validateBid bid.slot executionPayload.prevRandao = .ok ()
  onDuty : (store.findDutyBySlot bid.slot).isSome = true
  badSignature : (Crates.signatureFromBytes request.signature).isOk = false

/-- A trace panics exactly when everything before its public keys converts and
one of them does not. -/
theorem BidTrace.tryFrom_eq_panicked {trace : Gen.BidTrace} :
    BidTrace.tryFrom trace = .panicked ↔
      (Crates.u256FromStr trace.value).isSome = true ∧ trace.parentHash.length = 32 ∧
        trace.blockHash.length = 32 ∧
        ((Crates.publicKeyFromBytes trace.builderPubkey).isOk = false ∨
          (Crates.publicKeyFromBytes trace.proposerPubkey).isOk = false) := by
  have value : (∃ value, U256.fromStr trace.value = .ok value) ↔
      (Crates.u256FromStr trace.value).isSome = true := by
    cases parsed : Crates.u256FromStr trace.value <;> simp [U256.fromStr, parsed]
  have builder : (Crates.publicKeyFromBytes trace.builderPubkey).isOk = false ∨
      ∃ key, (BlsPublicKey.ofBytes trace.builderPubkey : Outcome ConversionError _) = .ok key := by
    rw [← @BlsPublicKey.ofBytes_eq_panicked _ ConversionError]
    cases read : (BlsPublicKey.ofBytes trace.builderPubkey : Outcome ConversionError _) with
    | ok key => exact .inr ⟨key, rfl⟩
    | err error => exact absurd read BlsPublicKey.ofBytes_ne_err
    | panicked => exact .inl rfl
  unfold BidTrace.tryFrom
  simp only [Outcome.bind_eq_panicked, Outcome.ofExcept_ne_panicked, Outcome.ofExcept_eq_ok,
    false_or, Outcome.pure_eq_ok, reduceCtorEq, and_false, exists_false, or_false,
    BlsPublicKey.ofBytes_eq_panicked, exists_and_right, B256.tryFrom_ok_iff]
  tauto

/-- The service answers a request: handling it ends, and never in a panic. -/
def Answers (service : Grpc.RelayService) (request : Gen.SubmitBlockRequest)
    (store : InMemoryStorage) : Prop :=
  (∃ outcome, Ends exec (Grpc.submitBlock service request) store outcome) ∧
    ∀ outcome, Ends exec (Grpc.submitBlock service request) store outcome → outcome ≠ .panicked

section Panics

variable {service : Grpc.RelayService} {request : Gen.SubmitBlockRequest} {store : InMemoryStorage}

omit [Crates] in
theorem validateBidAndPayload_panics_iff {bid : BidTrace} {executionPayload : ExecutionPayload}
    {rest : Except Status Validator → Program Calls (Outcome Status Gen.SubmitBlockResponse)}
    (rejects : ∀ status, rest (.error status) = .done (.err status)) :
    Ends exec (Grpc.validateBidAndPayload bid executionPayload >>= rest) store .panicked ↔
      bid.value ≠ 0 ∧ bid.builderPubkey ∈ store.wlistBuilders ∧
      store.slot.isNextSlot bid.slot = true ∧
      store.payloadAttributes.validateBid bid.slot executionPayload.prevRandao = .ok () ∧
      ∃ duty, store.findDutyBySlot bid.slot = some duty ∧
        Ends exec (rest (.ok duty)) store .panicked := by
  have passes : (bid.value ≠ 0 ∧ bid.builderPubkey ∈ store.wlistBuilders ∧
      store.slot.isNextSlot bid.slot = true ∧
      store.payloadAttributes.validateBid bid.slot executionPayload.prevRandao = .ok () ∧
      ∃ duty, store.findDutyBySlot bid.slot = some duty ∧
        Ends exec (rest (.ok duty)) store .panicked) ↔
      ∃ duty, validation store bid executionPayload = .ok duty ∧
        Ends exec (rest (.ok duty)) store .panicked := by
    simp only [validation_eq_ok, and_assoc, exists_and_left]
  simp only [passes, ends_bind_iff, yields_validateBidAndPayload_iff]
  cases validation store bid executionPayload <;> simp [Except.mapError, rejects]

/-- Handling a submission panics at a public key or at a signature that encodes
no point, and nowhere else. -/
theorem reaches_of_panics
    (panics : Ends exec (Grpc.submitBlock service request) store .panicked) :
    (∃ trace, ReachesBadKey request trace) ∨
      ∃ bid executionPayload, ReachesBadSignature request store bid executionPayload := by
  unfold Grpc.submitBlock at panics
  cases traceGiven : request.bidTrace with
  | none => simp [traceGiven] at panics
  | some wireTrace =>
  cases payloadGiven : request.executionPayload with
  | none => simp [traceGiven, payloadGiven] at panics
  | some wirePayload =>
  cases blobsGiven : request.blobsBundle with
  | none => simp [traceGiven, payloadGiven, blobsGiven] at panics
  | some wireBlobs =>
  simp only [traceGiven, payloadGiven, blobsGiven] at panics
  cases traceRead : BidTrace.tryFrom wireTrace with
  | err error => simp [traceRead] at panics
  | panicked =>
      obtain ⟨value, parentHash, blockHash, badKey⟩ := BidTrace.tryFrom_eq_panicked.mp traceRead
      exact .inl ⟨wireTrace, traceGiven, by simp [payloadGiven], by simp [blobsGiven], value,
        parentHash, blockHash, badKey⟩
  | ok bid =>
  simp only [traceRead, isBidHigher_bind, ends_storage, StorageCall.apply] at panics
  cases above : (store.bestBidPerSlot.lookup ⟨bid.slot, bid.parentHash, bid.proposerPubkey⟩).all
      fun held => held.message.value < bid.value with
  | false => simp [above] at panics
  | true =>
  cases payloadRead : ExecutionPayload.tryFrom wirePayload with
  | error error => simp [above, payloadRead] at panics
  | ok executionPayload =>
  simp only [above, payloadRead, Bool.not_true, Bool.false_eq_true, if_false] at panics
  rw [validateBidAndPayload_panics_iff fun _ => rfl] at panics
  obtain ⟨nonzero, whitelisted, next, valid, duty, onDuty, panics⟩ := panics
  refine .inr ⟨bid, executionPayload, ⟨wireTrace, traceGiven, traceRead⟩,
    ⟨wirePayload, payloadGiven, payloadRead⟩, by simp [blobsGiven], ?_, nonzero, whitelisted,
    next, valid, by simp [onDuty], ?_⟩
  · simpa [Option.all_eq_true] using above
  · cases signatureRead : (BlsSignature.ofBytes request.signature : Outcome Status _) with
    | panicked => exact BlsSignature.ofBytes_eq_panicked.mp signatureRead
    | err status => simp [signatureRead] at panics
    | ok signature =>
    cases verified : Grpc.verifySignature service bid signature with
    | error status => simp [signatureRead, verified] at panics
    | ok _ =>
    cases blobsRead : BlobsBundle.tryFrom wireBlobs with
    | error error => simp [signatureRead, verified, blobsRead] at panics
    | ok blobs => simp [signatureRead, verified, blobsRead, Grpc.updateBest] at panics

theorem panics_of_badKey {trace : Gen.BidTrace} (reaches : ReachesBadKey request trace) :
    Ends exec (Grpc.submitBlock service request) store .panicked := by
  obtain ⟨payload, payloadGiven⟩ := Option.isSome_iff_exists.mp reaches.executionPayload
  obtain ⟨blobs, blobsGiven⟩ := Option.isSome_iff_exists.mp reaches.blobsBundle
  have traceRead := BidTrace.tryFrom_eq_panicked.mpr
    ⟨reaches.value, reaches.parentHash, reaches.blockHash, reaches.badKey⟩
  simp [Grpc.submitBlock, reaches.bidTrace, payloadGiven, blobsGiven, traceRead]

theorem panics_of_badSignature {bid : BidTrace} {executionPayload : ExecutionPayload}
    (reaches : ReachesBadSignature request store bid executionPayload) :
    Ends exec (Grpc.submitBlock service request) store .panicked := by
  obtain ⟨wireTrace, traceGiven, traceRead⟩ := reaches.bidTrace
  obtain ⟨wirePayload, payloadGiven, payloadRead⟩ := reaches.payload
  obtain ⟨wireBlobs, blobsGiven⟩ := Option.isSome_iff_exists.mp reaches.blobsBundle
  obtain ⟨duty, onDuty⟩ := Option.isSome_iff_exists.mp reaches.onDuty
  have above : (store.bestBidPerSlot.lookup ⟨bid.slot, bid.parentHash, bid.proposerPubkey⟩).all
      (fun held => held.message.value < bid.value) = true := by
    simpa [Option.all_eq_true] using reaches.higher
  have signatureRead : (BlsSignature.ofBytes request.signature : Outcome Status _) = .panicked :=
    BlsSignature.ofBytes_eq_panicked.mpr reaches.badSignature
  unfold Grpc.submitBlock
  simp only [traceGiven, payloadGiven, blobsGiven, traceRead, isBidHigher_bind, ends_storage,
    StorageCall.apply, above, payloadRead, Bool.not_true, Bool.false_eq_true, if_false]
  rw [validateBidAndPayload_panics_iff fun _ => rfl]
  exact ⟨reaches.nonzero, reaches.whitelisted, reaches.nextSlot, reaches.attributes, duty, onDuty,
    by simp [signatureRead]⟩

/-- A submission panics exactly at a public key or a signature that encodes no
point, where the earlier conversions and checks let it get there. -/
theorem submitBlock_panics_iff :
    Ends exec (Grpc.submitBlock service request) store .panicked ↔
      (∃ trace, ReachesBadKey request trace) ∨
        ∃ bid executionPayload, ReachesBadSignature request store bid executionPayload := by
  constructor
  · exact reaches_of_panics
  · rintro (⟨trace, reaches⟩ | ⟨bid, executionPayload, reaches⟩)
    · exact panics_of_badKey reaches
    · exact panics_of_badSignature reaches

end Panics

/-- A submission is answered exactly when it reaches neither a public key nor a
signature that encodes no point. -/
theorem submitBlock_answers_iff (service : Grpc.RelayService) (request : Gen.SubmitBlockRequest)
    (store : InMemoryStorage) :
    Answers service request store ↔
      (¬ ∃ trace, ReachesBadKey request trace) ∧
        ¬ ∃ bid executionPayload, ReachesBadSignature request store bid executionPayload := by
  have panics := @submitBlock_panics_iff _ service request store
  rw [← not_or, ← panics]
  constructor
  · intro answers panics
    exact answers.2 .panicked panics rfl
  · rintro calm
    refine ⟨ends_total exec_total _ _, ?_⟩
    rintro outcome ends rfl
    exact calm ends

end Conversions

section BadKey

attribute [local instance] standIn

/-- A submission whose builder key is empty. -/
def emptyKey : Gen.SubmitBlockRequest where
  bidTrace := some {
    slot := 1
    parentHash := List.replicate 32 0
    blockHash := List.replicate 32 0
    builderPubkey := []
    proposerPubkey := []
    proposerFeeRecipient := []
    gasLimit := 0
    gasUsed := 0
    value := "1" }
  executionPayload := some {
    parentHash := []
    stateRoot := []
    receiptsRoot := []
    logsBloom := []
    prevRandao := []
    extraData := []
    baseFeePerGas := []
    feeRecipient := []
    blockHash := []
    transactions := []
    withdrawals := []
    blockNumber := 0
    gasLimit := 0
    timestamp := 0
    gasUsed := 0
    blobGasUsed := 0
    excessBlobGas := 0 }
  signature := []
  blobsBundle := some ⟨[], [], []⟩

theorem emptyKey_not_answered : ¬ Answers Demo.config.service emptyKey Demo.config.init := by
  rintro ⟨_, calm⟩
  have reaches : ∃ trace, ReachesBadKey emptyKey trace :=
    ⟨_, rfl, rfl, rfl, by decide +kernel, rfl, rfl, .inl rfl⟩
  obtain ⟨trace, reaches⟩ := reaches
  exact calm .panicked (panics_of_badKey reaches) rfl

end BadKey

end MevRelay
