import MevRelay.Relay.Admission
import MevRelay.Relay.Authenticity

/-!
# Headers of stored bids

What holds of every bid that a run files holds of every bid in every state of
the run, and of every header that is served.  No path checks that a bid fits a
header, or that its trace describes its payload.
-/

namespace MevRelay

open Concurrent

section Runs

variable [Crates] {config : Config} {trace : List RelayEvent} {world : RelayWorld}

/-- Every bid that the run files passes a test. -/
def FilesOnly (test : BidSubmission → Prop) (trace : List RelayEvent) : Prop :=
  ∀ event ∈ trace, ∀ slot bid, event.call = .storage (.setBestBid slot bid) → test bid

/-- Every bid in every state that the run goes through passes a test. -/
def StoresOnly (test : BidSubmission → Prop) (config : Config) (trace : List RelayEvent) : Prop :=
  ∀ front later, trace = front ++ later → ∀ key bid,
    (storeAfter config.init front).bestBidPerSlot.lookup key = some bid → test bid

theorem stored_bid_filed (run : RunFrom config config.init trace world) {key : SlotHashKey}
    {bid : BidSubmission} (stored : world.store.bestBidPerSlot.lookup key = some bid) :
    ∃ event ∈ trace, event.call = .storage (.setBestBid key.slot bid) ∧ key = bid.key ∧
      bid.message.verifySignature bid.signature config.forkData.computeBuilderDomain = true := by
  obtain ⟨event, membership, write⟩ := run.event_of_lookup bestBids_written rfl stored
  obtain ⟨slot, call, rfl⟩ := of_bestWrite? write
  obtain ⟨authentic, rfl⟩ := authentic_of_filed run membership call
  have signed := authentic.signed
  rw [(run_frame run).2.1] at signed
  exact ⟨event, membership, call, rfl, signed⟩

theorem storesOnly_iff (run : RunFrom config config.init trace world)
    (test : BidSubmission → Prop) : StoresOnly test config trace ↔ FilesOnly test trace := by
  constructor
  · intro stores event membership slot bid call
    obtain ⟨front, later, split⟩ := List.append_of_mem membership
    have executed := run.executed membership
    refine stores (front ++ [event]) later (by simp [split])
      ⟨slot, bid.message.parentHash, bid.message.proposerPubkey⟩ bid ?_
    rw [storeAfter_concat]
    obtain ⟨_, _, c, _, _, _⟩ := event
    cases call
    rw [(exec_storage.mp executed).2]
    exact Finmap.lookup_insert _
  · intro files front later split key bid stored
    obtain ⟨middle, shorter⟩ := run.prefix_run split
    rw [← shorter.store_eq] at stored
    obtain ⟨event, membership, call, _⟩ := stored_bid_filed shorter stored
    exact files event (by simp [split, membership]) key.slot bid call

end Runs

section Conversions

variable [Crates] {config : Config} {trace : List RelayEvent} {world : RelayWorld}

/-- The bid can be served: its header converts for every signer. -/
def Servable (bid : BidSubmission) : Prop :=
  ∀ signer, ∃ signed, SignedHeader.tryFrom bid signer = .ok signed

/-- A header has room for the commitments of a bid, and the hasher for the
withdrawals of its payload. -/
structure FitsHeader (bid : BidSubmission) : Prop where
  commitments : bid.blobsBundle.commitments.length ≤ 4096
  withdrawals : bid.executionPayload.withdrawals.toList.length ≤ 49

theorem tryFrom_ok_iff {bid : BidSubmission} {signer : BlsSigner} :
    (∃ signed, SignedHeader.tryFrom bid signer = .ok signed) ↔ FitsHeader bid := by
  constructor
  · rintro ⟨signed, made⟩
    obtain ⟨header, converted, _⟩ := Outcome.bind_eq_ok.mp made
    have commitments := congrArg List.length (SignedHeader.of_tryFrom made).2.1
    rw [List.length_map] at commitments
    exact {
      commitments := commitments ▸ signed.message.blobKzgCommitments.length_le
      withdrawals := ExecutionPayload.hashable_iff.mp (ExecutionPayload.toHeader_eq_ok.mp converted).1 }
  · intro fits
    have converted : (bid.executionPayload.toHeader : Outcome ConversionError _) =
        .ok (.ofPayload bid.executionPayload) :=
      ExecutionPayload.toHeader_eq_ok.mpr ⟨ExecutionPayload.hashable_iff.mpr fits.withdrawals, rfl⟩
    have room : (bid.blobsBundle.commitments.map Bytes48.asKzgCommitment).length ≤ 4096 := by
      rw [List.length_map]
      exact fits.commitments
    simp [SignedHeader.tryFrom, converted, Ssz.VariableList.new_of_le room]

theorem servable_iff (signer : BlsSigner) {bid : BidSubmission} : Servable bid ↔ FitsHeader bid :=
  ⟨fun servable => tryFrom_ok_iff.mp (servable signer), fun fits _ => tryFrom_ok_iff.mpr fits⟩

/-- A request for a header ended because the header of the bid did not convert,
with an error or without any answer. -/
def conversionFailed : Outcome GetHeaderError (Versioned SignedHeader) → Bool
  | .panicked | .err (.conversion _) => true
  | _ => false

/-- What a failed conversion shows: a bid was read whose header does not convert. -/
def conversionOutline (signer : BlsSigner) (slot : UInt64) (parentHash : B256)
    (pubkey : BlsPublicKey) : Outline Calls (Outcome GetHeaderError (Versioned SignedHeader)) where
  atCall _ _ := True
  atResult past outcome := conversionFailed outcome = true →
    ∃ bid, answered (.readBestBid slot parentHash pubkey) (some bid) ∈ past ∧
      ∀ signed, SignedHeader.tryFrom bid signer ≠ .ok signed

theorem getHeader_conversion (signer : BlsSigner) (slot : UInt64) (parentHash : B256)
    (pubkey : BlsPublicKey) :
    (conversionOutline signer slot parentHash pubkey).Holds []
      (Http.getHeader signer slot parentHash pubkey) := by
  simp only [Http.getHeader, Program.call_bind, Program.done_bind, Program.pure_eq_done]
  refine ⟨trivial, ?_⟩
  rintro (_ | registration)
  · intro failed
    cases failed
  refine ⟨trivial, fun head => ?_⟩
  cases next : HeadSlot.isNextSlot head slot with
  | false =>
      simp only [next]
      intro failed
      cases failed
  | true =>
  simp only [next]
  refine ⟨trivial, ?_⟩
  rintro (_ | bid)
  · intro failed
    cases failed
  cases signed : SignedHeader.tryFrom bid signer with
  | ok signedHeader =>
      simp only [signed]
      intro failed
      cases failed
  | err error | panicked =>
      simp only [signed]
      intro _
      exact ⟨bid, by simp, by simp [signed]⟩

/-- The outline that watches the conversions of headers and nothing else. -/
def conversionsOutline (config : Config) : Request → Outline Calls Reply
  | .getHeader slot parentHash pubkey =>
      (conversionOutline config.signer slot parentHash pubkey).map Reply.getHeader
  | _ => ⟨fun _ _ => True, fun _ _ => True⟩

theorem holds_conversions (config : Config) (request : Request) :
    (conversionsOutline config request).Holds [] (handler config request) := by
  cases request
  case getHeader slot parentHash pubkey =>
    exact (getHeader_conversion config.signer slot parentHash pubkey).map _
  all_goals exact (holds_handler config _).mono (fun _ _ _ => trivial) (fun _ _ _ => trivial)

/-- Every stored bid can be served, and no request for a header has failed to convert one. -/
structure AllServable (config : Config) (trace : List RelayEvent) (world : RelayWorld) : Prop where
  stored : StoresOnly Servable config trace
  served : ∀ (task : Nat) slot parentHash pubkey outcome, world.tasks[task]? =
    some ⟨.getHeader slot parentHash pubkey, .done (.getHeader outcome)⟩ →
      conversionFailed outcome = false

/-- All bids of a run can be served exactly when none is filed with more blob
commitments than a header has room for, or with more withdrawals than the hasher takes. -/
theorem all_servable_iff (run : RunFrom config config.init trace world) :
    AllServable config trace world ↔ FilesOnly FitsHeader trace := by
  have same : StoresOnly Servable config trace ↔ FilesOnly FitsHeader trace := by
    rw [← storesOnly_iff run]
    simp only [StoresOnly, servable_iff config.signer]
  refine ⟨fun servable => same.mp servable.stored, fun fits => ⟨same.mpr fits, ?_⟩⟩
  intro task slot parentHash pubkey outcome returned
  obtain ⟨result, sameReply, failures⟩ :=
    run.outline_atResult (holds_conversions config) returned
  cases sameReply
  apply eq_false_of_ne_true
  intro failed
  obtain ⟨bid, found, unconverted⟩ := failures failed
  obtain ⟨read, membership, _, _, answer⟩ := read_event run found
  obtain ⟨front, later, split⟩ := List.append_of_mem membership
  have stored : (storeAfter config.init front).bestBidPerSlot.lookup
      ⟨slot, parentHash, pubkey⟩ = some bid := by
    rw [← (run.event_at front read later split).2]
    exact answer.symm
  obtain ⟨signed, made⟩ := (same.mpr fits) front (read :: later) split _ bid stored config.signer
  exact unconverted signed made

end Conversions

section Traces

variable [Crates] {config : Config} {trace : List RelayEvent} {world : RelayWorld}

/-- The trace of a bid, which its builder signs, describes the payload that comes with it. -/
structure TraceDescribes (bid : BidSubmission) : Prop where
  parentHash : bid.message.parentHash = bid.executionPayload.parentHash
  blockHash : bid.message.blockHash = bid.executionPayload.blockHash
  gasLimit : bid.message.gasLimit = bid.executionPayload.gasLimit
  gasUsed : bid.message.gasUsed = bid.executionPayload.gasUsed

instance (bid : BidSubmission) : Decidable (TraceDescribes bid) :=
  decidable_of_iff
    (bid.message.parentHash = bid.executionPayload.parentHash ∧
      bid.message.blockHash = bid.executionPayload.blockHash ∧
      bid.message.gasLimit = bid.executionPayload.gasLimit ∧
      bid.message.gasUsed = bid.executionPayload.gasUsed)
    ⟨fun ⟨parentHash, blockHash, gasLimit, gasUsed⟩ => ⟨parentHash, blockHash, gasLimit, gasUsed⟩,
      fun describes =>
        ⟨describes.parentHash, describes.blockHash, describes.gasLimit, describes.gasUsed⟩⟩

/-- A header as it was asked for and as the builder of some filed bid signed it. -/
def AsSigned (config : Config) (trace : List RelayEvent) (key : SlotHashKey)
    (header : ExecutionPayloadHeader) : Prop :=
  header.parentHash = key.hash ∧ ∃ bid,
    (∃ event ∈ trace, event.call = .storage (.setBestBid key.slot bid)) ∧ bid.key = key ∧
    bid.message.verifySignature bid.signature config.forkData.computeBuilderDomain = true ∧
    header = .ofPayload bid.executionPayload ∧ header.blockHash = bid.message.blockHash

/-- The trace of every stored bid describes its payload, and every served header
is the one that was asked for and signed. -/
structure AllDescribed (config : Config) (trace : List RelayEvent) (world : RelayWorld) : Prop where
  stored : StoresOnly TraceDescribes config trace
  served : ∀ (task : Nat) slot parentHash pubkey served, world.tasks[task]? =
      some ⟨.getHeader slot parentHash pubkey, .done (.getHeader (.ok served))⟩ →
    AsSigned config trace ⟨slot, parentHash, pubkey⟩ served.data.message.header

/-- A served header is that of a bid filed under the key asked for. -/
theorem served_header_filed (run : RunFrom config config.init trace world) {task : Nat}
    {slot : UInt64} {parentHash : B256} {pubkey : BlsPublicKey} {served : Versioned SignedHeader}
    (returned : world.tasks[task]? =
      some ⟨.getHeader slot parentHash pubkey, .done (.getHeader (.ok served))⟩) :
    ∃ bid, (∃ event ∈ trace, event.call = .storage (.setBestBid slot bid)) ∧
      bid.key = ⟨slot, parentHash, pubkey⟩ ∧
      bid.message.verifySignature bid.signature config.forkData.computeBuilderDomain = true ∧
      served.data.message.header = .ofPayload bid.executionPayload := by
  obtain ⟨result, sameReply, _, facts⟩ := run.outline_atResult (holds_handler config) returned
  cases sameReply
  obtain ⟨_, ⟨bid, found, made⟩, _⟩ := facts served rfl
  obtain ⟨read, membership, _, _, answer⟩ := read_event run found
  obtain ⟨front, later, split⟩ := List.append_of_mem membership
  obtain ⟨middle, shorter, started⟩ := run.prefix_before split
  have stored : middle.store.bestBidPerSlot.lookup ⟨slot, parentHash, pubkey⟩ = some bid := by
    rw [started]
    exact answer.symm
  obtain ⟨event, inside, call, own, signed⟩ := stored_bid_filed shorter stored
  exact ⟨bid, ⟨event, by simp [split, inside], call⟩, own.symm, signed,
    (SignedHeader.of_tryFrom made).1⟩

/-- Every header of a run is the one that was signed exactly when the trace of
every bid that is filed describes its payload. -/
theorem all_described_iff (run : RunFrom config config.init trace world) :
    AllDescribed config trace world ↔ FilesOnly TraceDescribes trace := by
  refine ⟨fun described => (storesOnly_iff run _).mp described.stored,
    fun files => ⟨(storesOnly_iff run _).mpr files, ?_⟩⟩
  intro task slot parentHash pubkey served returned
  obtain ⟨bid, ⟨event, membership, call⟩, own, signed, header⟩ := served_header_filed run returned
  have describes := files event membership slot bid call
  have asked : bid.message.parentHash = parentHash := congrArg SlotHashKey.hash own
  refine ⟨?_, bid, ⟨event, membership, call⟩, own, signed, header, ?_⟩
  · rw [header, ← asked, describes.parentHash]
    rfl
  · rw [header, describes.blockHash]
    rfl

end Traces

section Mislabelled

open Demo

attribute [local instance] standIn

/-- A bid whose trace names another parent than its payload is filed, and its
header is asked for. -/
@[irreducible]
def mislabelled : Played Calls Request Reply InMemoryStorage :=
  play [.postBids (bidWith 5 2 8 .empty), .getHeader 1 (hash 2) (pubkey 3)]
    (List.replicate 9 2 ++ List.replicate 3 3)

theorem mislabelled_run :
    RunFrom config config.init mislabelled.trace mislabelled.world := by
  unfold mislabelled
  exact playFrom_run _ _ _

theorem mislabelled_described_iff :
    AllDescribed config mislabelled.trace mislabelled.world ↔
      FilesOnly TraceDescribes mislabelled.trace :=
  all_described_iff mislabelled_run

/-- The header that is served names another parent than the one asked for. -/
theorem mislabelled_header_served :
    RunFrom config config.init mislabelled.trace mislabelled.world ∧
      ¬ AllDescribed config mislabelled.trace mislabelled.world := by
  refine ⟨mislabelled_run, fun described => ?_⟩
  have returned : mislabelled.world.returned? 3 =
      some (.getHeader 1 (hash 2) (pubkey 3),
        .getHeader (.ok ⟨.deneb, signedHeader (bidWith 5 2 8 .empty)⟩)) := by
    decide +kernel
  have asked := (described.served 3 1 (hash 2) (pubkey 3) _ (World.returned?_eq_some.mp returned)).1
  have other : (payload 8).parentHash ≠ Demo.hash 2 := by decide
  exact other asked

theorem mislabelled_servable_iff :
    AllServable config mislabelled.trace mislabelled.world ↔
      FilesOnly FitsHeader mislabelled.trace :=
  all_servable_iff mislabelled_run

end Mislabelled

section Oversized

open Demo

attribute [local instance] standIn

/-- A bid with one blob commitment more than a header has room for. -/
def oversized : BidSubmission :=
  { bid 5 6 with blobsBundle := ⟨List.replicate 4097 ⟨.replicate 0⟩, .empty, .empty⟩ }

/-- A bid with one withdrawal more than the hasher takes. -/
def overdrawn : BidSubmission :=
  { bid 5 6 with executionPayload :=
      { payload 6 with withdrawals := ⟨List.replicate 50 ⟨0, 7, ⟨.replicate 0⟩, 32⟩⟩ } }

theorem oversized_admitted :
    ∀ bid ∈ [oversized, overdrawn], Admitted (serve []).2.forkData (serve []).2 bid duty := by
  have empty : (serve []).2.bestBidPerSlot = ∅ := by decide +kernel
  have checked : ∀ bid ∈ [oversized, overdrawn],
      ((serve []).2.forkData = config.forkData ∧ bid.message.value ≠ 0 ∧
        bid.message.builderPubkey ∈ (serve []).2.wlistBuilders ∧
        (serve []).2.slot.isNextSlot bid.message.slot = true) ∧
      (serve []).2.payloadAttributes.validateBid bid.message.slot
        bid.executionPayload.prevRandao = .ok () ∧
      (serve []).2.findDutyBySlot bid.message.slot = some duty ∧
      bid.message.verifySignature bid.signature config.forkData.computeBuilderDomain = true := by
    decide +kernel
  intro bid among
  obtain ⟨⟨forks, nonzero, whitelisted, nextSlot⟩, attributes, onDuty, signed⟩ := checked bid among
  exact {
    higher := by simp [empty]
    valid := ⟨nonzero, whitelisted, nextSlot, attributes, onDuty⟩
    signed := forks ▸ signed }

/-- A bid that some run files and cannot serve. -/
def Stuck (submission : BidSubmission) : Prop :=
  ∃ trace world, RunFrom config config.init trace world ∧
    world.store.bestBidPerSlot.lookup submission.key = some submission ∧
    ¬ AllServable config trace world

theorem stuck_of_admitted {submission : BidSubmission}
    (admitted : Admitted (serve []).2.forkData (serve []).2 submission duty)
    (unfit : ¬ FitsHeader submission) : Stuck submission := by
  have filed : ∃ bid duty, (Request.postBids submission).submission? = some bid ∧
      Admitted (forksUsed config (serve []).2 (.postBids submission)) (serve []).2 bid duty ∧
      (serve []).2.file submission Demo.duty = (serve []).2.file bid duty :=
    ⟨submission, Demo.duty, rfl, admitted, rfl⟩
  obtain ⟨reply, ⟨calls, executed⟩, _⟩ := accepted_yields_iff.mpr filed
  obtain ⟨trace, run, _⟩ := (Serial.finish (serve_serial []) executed).run
  have stored := InMemoryStorage.lookup_file (serve []).2 submission Demo.duty
  refine ⟨trace, _, run, stored, fun servable => ?_⟩
  have last : (storeAfter config.init trace).bestBidPerSlot.lookup submission.key =
      some submission := by
    rw [← run.store_eq]
    exact stored
  have converts := servable.stored trace [] (List.append_nil trace).symm _ _ last config.signer
  exact unfit (tryFrom_ok_iff.mp converts)

/-- Either bid is accepted, and nobody can be served its header. -/
theorem oversized_bid_stuck : Stuck oversized ∧ Stuck overdrawn := by
  constructor
  · refine stuck_of_admitted (oversized_admitted oversized (by simp)) fun fits => ?_
    exact absurd fits.commitments (by decide +kernel)
  · refine stuck_of_admitted (oversized_admitted overdrawn (by simp)) fun fits => ?_
    exact absurd fits.withdrawals (by decide +kernel)

end Oversized

end MevRelay
