import MevRelay.Relay.Auction

/-!
# What the read endpoints reveal

Two stores that differ only in the transactions and blobs they hold, and the
replies that tell them apart.
-/

namespace MevRelay

open Concurrent

section Secrets

variable [Crates]

/-- Payloads that differ in their transactions only, which have one root. -/
structure SamePayload (first second : ExecutionPayload) : Prop where
  rest : { first with transactions := second.transactions } = second
  root : treeHashRoot first.transactions = treeHashRoot second.transactions

/-- Bundles that differ in their blobs only. -/
structure SameBundle (first second : BlobsBundle) : Prop where
  rest : { first with blobs := second.blobs } = second

structure SameSubmission (first second : BidSubmission) : Prop where
  message : first.message = second.message
  executionPayload : SamePayload first.executionPayload second.executionPayload
  blobsBundle : SameBundle first.blobsBundle second.blobsBundle
  signature : first.signature = second.signature

structure SameResponse (first second : BlindedBlockResponse) : Prop where
  executionPayload : SamePayload first.executionPayload second.executionPayload
  blobsBundle : SameBundle first.blobsBundle second.blobsBundle

/-- Stores that differ only in the transactions and blobs of the submissions
and responses they hold. -/
structure SameButPayloads (first second : InMemoryStorage) : Prop where
  rest : { first with
    bestBidPerSlot := second.bestBidPerSlot
    bestBidBySlot := second.bestBidBySlot
    bestBidByBlockNumber := second.bestBidByBlockNumber
    blindedBlockResp := second.blindedBlockResp } = second
  perSlot : SameEntries SameSubmission first.bestBidPerSlot second.bestBidPerSlot
  bySlot : SameEntries SameSubmission first.bestBidBySlot second.bestBidBySlot
  byBlockNumber : SameEntries SameSubmission first.bestBidByBlockNumber second.bestBidByBlockNumber
  responses : SameEntries SameResponse first.blindedBlockResp second.blindedBlockResp

section Stores

theorem SameSubmission.refl (bid : BidSubmission) : SameSubmission bid bid :=
  ⟨rfl, ⟨rfl, rfl⟩, ⟨rfl⟩, rfl⟩

theorem SameSubmission.toBlindedBlockResponse {first second : BidSubmission}
    (same : SameSubmission first second) :
    SameResponse first.toBlindedBlockResponse second.toBlindedBlockResponse :=
  ⟨same.executionPayload, same.blobsBundle⟩

/-- Submissions that differ in their content only, accepted in one store, leave
stores that differ in content only. -/
theorem sameButPayloads_of_accepted {store firstAfter secondAfter : InMemoryStorage}
    {firstRequest secondRequest : Request} {firstBid secondBid : BidSubmission}
    {firstDuty secondDuty : Validator}
    (first : Accepted store firstRequest firstAfter firstBid firstDuty)
    (second : Accepted store secondRequest secondAfter secondBid secondDuty)
    (same : SameSubmission firstBid secondBid) : SameButPayloads firstAfter secondAfter := by
  have duty : firstDuty = secondDuty := by
    have found := first.onDuty
    rw [same.message, second.onDuty] at found
    exact (Option.some.inj found).symm
  have blockNumber : secondBid.executionPayload.blockNumber =
      firstBid.executionPayload.blockNumber := by
    rw [← same.executionPayload.rest]
  rw [first.stored, second.stored, duty]
  simp only [InMemoryStorage.setBestBid, InMemoryStorage.setBlindedBlockResponse, ← same.message,
    blockNumber]
  exact {
    rest := rfl
    perSlot := (SameEntries.refl SameSubmission.refl _).insert _ same
    bySlot := SameEntries.refl SameSubmission.refl _
    byBlockNumber := (SameEntries.refl SameSubmission.refl _).insert _ same
    responses := (SameEntries.refl (fun _ => ⟨⟨rfl, rfl⟩, ⟨rfl⟩⟩) _).insert _
      same.toBlindedBlockResponse }

end Stores

theorem ExecutionPayloadHeader.ofPayload_eq {first second : ExecutionPayload}
    (same : SamePayload first second) : ofPayload first = ofPayload second := by
  obtain ⟨rest, root⟩ := same
  rw [← rest]
  simp only [ofPayload, root]

theorem ExecutionPayload.toHeader_eq {Error : Type} {first second : ExecutionPayload}
    (same : SamePayload first second) :
    (first.toHeader : Outcome Error ExecutionPayloadHeader) = second.toHeader := by
  have withdrawals : first.withdrawals = second.withdrawals := by
    rw [← same.rest]
  simp only [toHeader, withdrawals, ExecutionPayloadHeader.ofPayload_eq same]

/-- A signed header shows nothing of a submission but what both have in common. -/
theorem SignedHeader.tryFrom_eq {first second : BidSubmission} (same : SameSubmission first second)
    (signer : BlsSigner) : tryFrom first signer = tryFrom second signer := by
  have commitments : first.blobsBundle.commitments = second.blobsBundle.commitments := by
    rw [← same.blobsBundle.rest]
  simp only [tryFrom, ExecutionPayload.toHeader_eq same.executionPayload, commitments, same.message]

omit [Crates] in
/-- The submission a query names: the one stored under its slot, else the one
stored under its block number. -/
def InMemoryStorage.receivedBid (store : InMemoryStorage) (params : QueryParams) :
    Option BidSubmission :=
  (params.slot.bind fun slot => store.bestBidBySlot.lookup slot).or
    (params.blockNumber.bind fun blockNumber => store.bestBidByBlockNumber.lookup blockNumber)

section Replies

variable {store : InMemoryStorage}

omit [Crates] in
theorem getBids_ends_iff {params : QueryParams} {bids : List BidSubmission} :
    Ends exec (Http.getBids params) store bids ↔ bids = (store.receivedBid params).toList := by
  unfold Http.getBids InMemoryStorage.receivedBid
  rcases params with ⟨_ | slot, _ | blockNumber⟩
  · simp
  · cases numbered : store.bestBidByBlockNumber.lookup blockNumber <;>
      simp [StorageCall.apply, numbered]
  · cases slotted : store.bestBidBySlot.lookup slot <;> simp [StorageCall.apply, slotted]
  · cases slotted : store.bestBidBySlot.lookup slot with
    | none =>
        cases numbered : store.bestBidByBlockNumber.lookup blockNumber <;>
          simp [StorageCall.apply, slotted, numbered]
    | some bid => simp [StorageCall.apply, slotted]

theorem getHeader_ends_iff {signer : BlsSigner} {slot : UInt64} {parentHash : B256}
    {pubkey : BlsPublicKey} {result : Outcome GetHeaderError (Versioned SignedHeader)} :
    Ends exec (Http.getHeader signer slot parentHash pubkey) store result ↔
      result =
        if (store.validatorRegistrations.lookup pubkey).isNone then .err .unauthorizedGetHeader
        else if !store.slot.isNextSlot slot then .err .invalidSlot
        else match (store.bestBidPerSlot.lookup ⟨slot, parentHash, pubkey⟩).map
            fun bid => SignedHeader.tryFrom bid signer with
          | none => .err .noBidFound
          | some .panicked => .panicked
          | some (.err error) => .err (.conversion error)
          | some (.ok signedHeader) => .ok ⟨.deneb, signedHeader⟩ := by
  unfold Http.getHeader
  cases registered : store.validatorRegistrations.lookup pubkey with
  | none => simp [StorageCall.apply, registered]
  | some registration =>
  cases next : store.slot.isNextSlot slot with
  | false => simp [StorageCall.apply, registered, next]
  | true =>
  cases best : store.bestBidPerSlot.lookup ⟨slot, parentHash, pubkey⟩ with
  | none => simp [StorageCall.apply, registered, next, best]
  | some bid =>
  cases made : SignedHeader.tryFrom bid signer <;>
    simp [StorageCall.apply, registered, next, best, made]

end Replies

/-- The read endpoints that ask for no authorisation. -/
def Request.isPublicRead : Request → Bool
  | .getHeader _ _ _ | .getValidators | .getBids _ => true
  | _ => false

/-- Two stores get the same reply to a request. -/
def SameReplies (config : Config) (request : Request) (first second : InMemoryStorage) : Prop :=
  ∀ firstReply secondReply, Ends exec (handler config request) first firstReply →
    Ends exec (handler config request) second secondReply → firstReply = secondReply

omit [Crates] in
/-- A query for bids names a submission whose transactions or blobs are not the
same in both stores. -/
def NamesDifferent (first second : InMemoryStorage) (request : Request) : Prop :=
  ∃ params firstBid secondBid, request = .getBids params ∧
    first.receivedBid params = some firstBid ∧ second.receivedBid params = some secondBid ∧
    (firstBid.executionPayload.transactions ≠ secondBid.executionPayload.transactions ∨
      firstBid.blobsBundle.blobs ≠ secondBid.blobsBundle.blobs)

theorem SamePayload.eq {first second : ExecutionPayload} (same : SamePayload first second)
    (transactions : first.transactions = second.transactions) : first = second := by
  rw [← same.rest, ← transactions]

omit [Crates] in
theorem SameBundle.eq {first second : BlobsBundle} (same : SameBundle first second)
    (blobs : first.blobs = second.blobs) : first = second := by
  rw [← same.rest, ← blobs]

theorem SameSubmission.eq {first second : BidSubmission} (same : SameSubmission first second)
    (transactions : first.executionPayload.transactions = second.executionPayload.transactions)
    (blobs : first.blobsBundle.blobs = second.blobsBundle.blobs) : first = second := by
  have executionPayload := same.executionPayload.eq transactions
  have blobsBundle := same.blobsBundle.eq blobs
  have message := same.message
  have signature := same.signature
  cases first
  cases second
  simp_all

theorem SameButPayloads.receivedBid {first second : InMemoryStorage}
    (same : SameButPayloads first second) (params : QueryParams) :
    Option.Rel SameSubmission (first.receivedBid params) (second.receivedBid params) := by
  rcases params with ⟨_ | slot, _ | blockNumber⟩
  · exact .none
  · exact same.byBlockNumber blockNumber
  · simpa [InMemoryStorage.receivedBid] using same.bySlot slot
  · have slotted := same.bySlot slot
    simp only [InMemoryStorage.receivedBid, Option.bind_some]
    generalize first.bestBidBySlot.lookup slot = firstBid at slotted ⊢
    generalize second.bestBidBySlot.lookup slot = secondBid at slotted ⊢
    cases slotted with
    | none => exact same.byBlockNumber blockNumber
    | some related => exact .some related

theorem SameButPayloads.receivedBid_eq {first second : InMemoryStorage}
    (same : SameButPayloads first second) {params : QueryParams}
    (agree : ¬ NamesDifferent first second (.getBids params)) :
    first.receivedBid params = second.receivedBid params := by
  have named := same.receivedBid params
  cases firstNamed : first.receivedBid params with
  | none =>
      rw [firstNamed] at named
      generalize second.receivedBid params = secondBid at named ⊢
      cases named
      rfl
  | some firstBid =>
  cases secondNamed : second.receivedBid params with
  | none =>
      rw [firstNamed, secondNamed] at named
      cases named
  | some secondBid =>
  rw [firstNamed, secondNamed] at named
  cases named with
  | some related =>
      by_contra different
      refine agree ⟨params, firstBid, secondBid, rfl, firstNamed, secondNamed, ?_⟩
      by_contra alike
      rw [not_or, not_not, not_not] at alike
      exact different (congrArg some (related.eq alike.1 alike.2))

section Endpoints

variable {first second : InMemoryStorage} {config : Config}

theorem getValidators_replies_same (same : SameButPayloads first second) :
    SameReplies config .getValidators first second := by
  intro firstReply secondReply firstEnds secondEnds
  simp only [handler, Http.getValidators, ends_map_iff, ends_storage, ends_done_iff,
    StorageCall.apply] at firstEnds secondEnds
  obtain ⟨_, rfl, rfl⟩ := firstEnds
  obtain ⟨_, rfl, rfl⟩ := secondEnds
  rw [← same.rest]

theorem getHeader_replies_same (same : SameButPayloads first second) (slot : UInt64)
    (parentHash : B256) (pubkey : BlsPublicKey) :
    SameReplies config (.getHeader slot parentHash pubkey) first second := by
  intro firstReply secondReply firstEnds secondEnds
  obtain ⟨firstResult, firstEnded, rfl⟩ := ends_map_iff.mp firstEnds
  obtain ⟨secondResult, secondEnded, rfl⟩ := ends_map_iff.mp secondEnds
  rw [getHeader_ends_iff] at firstEnded secondEnded
  have registrations : second.validatorRegistrations = first.validatorRegistrations := by
    rw [← same.rest]
  have head : second.slot = first.slot := by
    rw [← same.rest]
  have best := same.perSlot ⟨slot, parentHash, pubkey⟩
  have signed : (first.bestBidPerSlot.lookup ⟨slot, parentHash, pubkey⟩).map
        (fun bid => SignedHeader.tryFrom bid config.signer) =
      (second.bestBidPerSlot.lookup ⟨slot, parentHash, pubkey⟩).map
        fun bid => SignedHeader.tryFrom bid config.signer := by
    generalize first.bestBidPerSlot.lookup _ = firstBid at best ⊢
    generalize second.bestBidPerSlot.lookup _ = secondBid at best ⊢
    cases best with
    | none => rfl
    | some related => exact congrArg some (SignedHeader.tryFrom_eq related config.signer)
  rw [firstEnded, secondEnded, registrations, head, signed]

/-- The replies to a query for bids are the same when the named bids are. -/
theorem getBids_replies_same_iff {params : QueryParams} :
    SameReplies config (.getBids params) first second ↔
      first.receivedBid params = second.receivedBid params := by
  constructor
  · intro replies
    have alike := replies _ _
      (ends_map_iff.mpr ⟨_, getBids_ends_iff.mpr rfl, rfl⟩)
      (ends_map_iff.mpr ⟨_, getBids_ends_iff.mpr rfl, rfl⟩)
    have named := congrArg List.head? (Reply.getBids.inj alike)
    simpa only [Option.head?_toList] using named
  · intro alike firstReply secondReply firstEnds secondEnds
    obtain ⟨firstBids, firstEnded, rfl⟩ := ends_map_iff.mp firstEnds
    obtain ⟨secondBids, secondEnded, rfl⟩ := ends_map_iff.mp secondEnds
    rw [getBids_ends_iff] at firstEnded secondEnded
    rw [firstEnded, secondEnded, alike]

end Endpoints

/-- The read endpoints tell two stores apart that differ only in transactions
and blobs exactly where a query for bids names a submission that differs. -/
theorem replies_same_iff {first second : InMemoryStorage} (same : SameButPayloads first second)
    {config : Config} {request : Request} (reads : request.isPublicRead = true) :
    SameReplies config request first second ↔ ¬ NamesDifferent first second request := by
  cases request
  case getValidators =>
    exact iff_of_true (getValidators_replies_same same) (by rintro ⟨_, _, _, ⟨⟩, _⟩)
  case getHeader slot parentHash pubkey =>
    exact iff_of_true (getHeader_replies_same same slot parentHash pubkey)
      (by rintro ⟨_, _, _, ⟨⟩, _⟩)
  case getBids params =>
    rw [getBids_replies_same_iff]
    constructor
    · rintro alike ⟨_, firstBid, secondBid, ⟨⟩, firstNamed, secondNamed, different⟩
      rw [firstNamed, secondNamed] at alike
      cases alike
      rcases different with transactions | blobs
      · exact transactions rfl
      · exact blobs rfl
    · exact same.receivedBid_eq
  all_goals cases reads

end Secrets

section Revealing

open Demo

attribute [local instance] standIn

/-- A bid is submitted with the given blobs. -/
def withBlobs (blobs : Ssz.UncheckedList Blob 4096) :
    Completed Calls Request Reply InMemoryStorage :=
  complete (.postBids (bidWith 5 1 6 blobs)) (serve []).2

def oneBlob : Ssz.UncheckedList Blob 4096 := ⟨[(Ssz.FixedVector.replicate 0).unchecked]⟩

theorem withBlobs_accepted (blobs : Ssz.UncheckedList Blob 4096)
    (accepted : (withBlobs blobs).result.isAccepted = true) :
    ∃ duty, Accepted (serve []).2 (.postBids (bidWith 5 1 6 blobs)) (withBlobs blobs).after
      (bidWith 5 1 6 blobs) duty := by
  obtain ⟨bid, duty, found⟩ := accepted_exec
    (surroundings.responder.complete_exec (handler config) _ _) accepted
  obtain rfl : bidWith 5 1 6 blobs = bid := Option.some.inj found.carried
  exact ⟨duty, found⟩

theorem demo_same_but_payloads :
    SameButPayloads (withBlobs .empty).after (withBlobs oneBlob).after := by
  obtain ⟨_, first⟩ := withBlobs_accepted .empty (by decide +kernel)
  obtain ⟨_, second⟩ := withBlobs_accepted oneBlob (by decide +kernel)
  exact sameButPayloads_of_accepted first second ⟨rfl, ⟨rfl, rfl⟩, ⟨rfl⟩, rfl⟩

theorem demo_replies_same_iff :
    SameReplies config (.getBids ⟨none, some 1⟩) (withBlobs .empty).after (withBlobs oneBlob).after ↔
      ¬ NamesDifferent (withBlobs .empty).after (withBlobs oneBlob).after
        (.getBids ⟨none, some 1⟩) :=
  replies_same_iff demo_same_but_payloads rfl

/-- A query by block number shows whether the bid has a blob. -/
theorem blobs_revealed :
    SameButPayloads (withBlobs .empty).after (withBlobs oneBlob).after ∧
      ¬ SameReplies config (.getBids ⟨none, some 1⟩) (withBlobs .empty).after
        (withBlobs oneBlob).after := by
  refine ⟨demo_same_but_payloads, fun same => ?_⟩
  have replies := same _ _
    (ends_map_iff.mpr ⟨_, getBids_ends_iff.mpr rfl, rfl⟩)
    (ends_map_iff.mpr ⟨_, getBids_ends_iff.mpr rfl, rfl⟩)
  have counts := congrArg (List.map fun bid => bid.blobsBundle.blobs.toList.length)
    (Reply.getBids.inj replies)
  exact absurd counts (by decide +kernel)

end Revealing

end MevRelay
