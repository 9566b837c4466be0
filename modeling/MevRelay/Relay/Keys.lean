import MevRelay.Primitives.PublicKeys
import MevRelay.Grpc.Wire
import MevRelay.Relay.Proposers
import MevRelay.Relay.Admission

/-!
# The public keys in the storage

Keys enter as texts, which are checked, or as bytes, which are only decoded.
Those the storage holds have all been checked exactly when the unchecked ones
that reach it are valid.
-/

namespace MevRelay

open Concurrent Ssz

/-- Some map of the storage holds the bid. -/
inductive Held (store : InMemoryStorage) (bid : BidSubmission) : Prop where
  | perSlot {key} : store.bestBidPerSlot.lookup key = some bid → Held store bid
  | bySlot {slot} : store.bestBidBySlot.lookup slot = some bid → Held store bid
  | byBlockNumber {number} : store.bestBidByBlockNumber.lookup number = some bid → Held store bid

/-- The public keys in the storage. -/
inductive StoredKey (store : InMemoryStorage) : BlsPublicKey → Prop where
  | whitelisted {key} : key ∈ store.wlistBuilders → StoredKey store key
  | registered {key registration} : store.validatorRegistrations.lookup key = some registration →
      StoredKey store key
  | registration {key registration} :
      store.validatorRegistrations.lookup key = some registration →
      StoredKey store registration.message.pubkey
  | onDuty {duty} : duty ∈ store.proposerDuties → StoredKey store duty.pubkey
  | bidKey {key bid} : store.bestBidPerSlot.lookup key = some bid → StoredKey store key.validator
  | builder {bid} : Held store bid → StoredKey store bid.message.builderPubkey
  | proposer {bid} : Held store bid → StoredKey store bid.message.proposerPubkey
  | response {key response} : store.blindedBlockResp.lookup key = some response →
      StoredKey store key

/-- The keys that were parsed from the JSON body of a request. -/
def Request.jsonKeys : Request → List BlsPublicKey
  | .postBids submission => [submission.message.builderPubkey, submission.message.proposerPubkey]
  | .postValidators _ registrations => registrations.map fun entry => entry.message.pubkey
  | _ => []

section Runs

variable [Crates] [KeyCrates] {config : Config} {trace front later : List RelayEvent}
  {world : RelayWorld} {event : RelayEvent}

/-- The keys in the JSON bodies are those their texts were parsed to. -/
def JsonParsed (trace : List RelayEvent) : Prop :=
  ∀ event ∈ trace, ∀ key ∈ event.request.jsonKeys, ∃ text, BlsPublicKey.fromStr text = .ok key

/-- Every key in every state of an interleaving passes the checks. -/
def AlwaysValidated (config : Config) (trace : List RelayEvent) : Prop :=
  ∀ front later, trace = front ++ later →
    ∀ key, StoredKey (storeAfter config.init front) key → key.Validated

/-- The unchecked keys that reach the storage are valid: those of the builders
enabled at the start, and the proposer keys of the bids filed over gRPC. -/
structure UncheckedValid (config : Config) (trace : List RelayEvent) : Prop where
  builders : ∀ key ∈ config.wlistBuilders, key.point.Valid
  proposers : ∀ event ∈ trace, ∀ request bid, event.request = .submitBlock request →
    request.submission? = some bid → (bestWrite? event.record).isSome = true →
    bid.message.proposerPubkey.point.Valid

theorem validated_of_json (decoding : KeyDecoding) (parsed : JsonParsed trace)
    (membership : event ∈ trace) {key : BlsPublicKey} (carried : key ∈ event.request.jsonKeys) :
    key.Validated := by
  obtain ⟨text, read⟩ := parsed event membership key carried
  exact BlsPublicKey.validated_of_fromStr decoding read

/-- A key that a registration was stored under came in a JSON body. -/
theorem validated_of_registered (decoding : KeyDecoding) (parsed : JsonParsed trace)
    {pubkey : BlsPublicKey} {registration : ValidatorRegistration}
    (authentic : AuthenticRegistration config trace pubkey registration) : pubkey.Validated := by
  obtain ⟨event, membership, apiKey, batch, request, inside, _⟩ := authentic.posted
  apply validated_of_json decoding parsed membership
  rw [request, ← authentic.own]
  exact List.mem_map.mpr ⟨registration, inside, rfl⟩

theorem validated_of_duty (decoding : KeyDecoding) (parsed : JsonParsed trace)
    {duty : Validator} (authentic : AuthenticDuty config trace duty) : duty.pubkey.Validated := by
  obtain ⟨_, _, _, _, _, _, pubkey, _, _, _, _, _, _, _, registered⟩ := authentic
  rw [Validator.pubkey, registered.own]
  exact validated_of_registered decoding parsed registered

omit [KeyCrates] in
theorem decoded_of_submission {request : Gen.SubmitBlockRequest} {bid : BidSubmission}
    (carried : request.submission? = some bid) :
    ∃ bytes, Crates.publicKeyFromBytes bytes = .ok bid.message.proposerPubkey.point := by
  obtain ⟨trace, _, _, message, _, _, _, _, _, _, converted, _, _, _, rfl⟩ :=
    Grpc.of_submission? carried
  simp only [BidTrace.tryFrom, Outcome.bind_eq_ok] at converted
  obtain ⟨_, _, _, _, _, _, _, _, proposer, decoded, _, _, same⟩ := converted
  cases same
  exact ⟨_, BlsPublicKey.ofBytes_eq_ok.mp decoded⟩

omit [KeyCrates] in
/-- Every bid that is held was filed. -/
theorem Held.filed {bid : BidSubmission} (held : Held world.store bid)
    (run : RunFrom config config.init trace world) :
    ∃ event ∈ trace, ∃ slot, event.call = .storage (.setBestBid slot bid) := by
  cases held with
  | perSlot stored =>
      obtain ⟨event, membership, write⟩ := run.event_of_lookup bestBids_written rfl stored
      obtain ⟨slot, call, _⟩ := of_bestWrite? write
      exact ⟨event, membership, slot, call⟩
  | bySlot stored =>
      rw [(run_frame run).2.2] at stored
      cases stored
  | byBlockNumber stored =>
      obtain ⟨event, membership, write⟩ := run.event_of_lookup bestBidNumbers_written rfl stored
      obtain ⟨slot, call, _⟩ := of_numberWrite? write
      exact ⟨event, membership, slot, call⟩

section Entered

variable {builders : List (FixedVector UInt8 48)}

theorem validated_of_whitelisted (decoding : KeyDecoding)
    (enabled : enabledBuilders builders = .ok config.wlistBuilders)
    (valid : UncheckedValid config trace) {key : BlsPublicKey}
    (listed : key ∈ config.wlistBuilders) : key.Validated := by
  obtain ⟨bytes, decoded⟩ := decoded_of_enabled enabled key listed
  exact (BlsPublicKey.validated_iff decoding decoded).mpr (valid.builders key listed)

/-- The keys of a bid that was filed pass the checks: its builder is enabled, and
its proposer came over gRPC or in JSON. -/
theorem validated_of_filed (decoding : KeyDecoding)
    (enabled : enabledBuilders builders = .ok config.wlistBuilders)
    (run : RunFrom config config.init trace world) (parsed : JsonParsed trace)
    (valid : UncheckedValid config trace) (membership : event ∈ trace) {slot : UInt64}
    {bid : BidSubmission} (call : event.call = .storage (.setBestBid slot bid)) :
    bid.message.builderPubkey.Validated ∧ bid.message.proposerPubkey.Validated := by
  constructor
  · have listed := (authentic_of_filed run membership call).1.whitelisted
    rw [(run_frame run).1] at listed
    exact validated_of_whitelisted decoding enabled valid listed
  · obtain ⟨front, later, split⟩ := List.append_of_mem membership
    obtain ⟨submits, _, carried, _⟩ := setBestBid_event run split call
    cases request : event.request
    case submitBlock message =>
      rw [request] at carried
      obtain ⟨bytes, decoded⟩ := decoded_of_submission carried
      apply (BlsPublicKey.validated_iff decoding decoded).mpr
      apply valid.proposers event membership message bid request carried
      simp only [bestWrite?, Event.record, call, Option.isSome_some]
    case postBids submission =>
      rw [request] at carried
      cases carried
      apply validated_of_json decoding parsed membership
      rw [request]
      exact List.mem_cons_of_mem _ List.mem_cons_self
    all_goals
      rw [request] at submits
      cases submits

/-- The proposer of a response was on duty when its bid was checked. -/
theorem validated_of_responded (decoding : KeyDecoding)
    (run : RunFrom config config.init trace world) (parsed : JsonParsed trace)
    (membership : event ∈ trace) {proposer : BlsPublicKey} {response : BlindedBlockResponse}
    (call : event.call = .storage (.setBlindedBlockResponse proposer response)) :
    proposer.Validated := by
  obtain ⟨front, later, rfl⟩ := List.append_of_mem membership
  obtain ⟨_, reads, bid, duty, made, _, _, checked, rfl, _⟩ :=
    setBlindedBlockResponse_event run rfl call
  obtain ⟨_, shorter⟩ := run.prefix_run rfl
  have asked : answered (.findDutyBySlot bid.message.slot) (some duty) ∈ past event.task front := by
    rw [made]
    exact List.mem_append_left _ checked.validated.onDuty
  obtain ⟨read, inside, _, _, answer⟩ := read_event shorter asked
  obtain ⟨first, second, rfl⟩ := List.append_of_mem inside
  obtain ⟨_, earlier, started⟩ := shorter.prefix_before rfl
  have onDuty := (InMemoryStorage.findDutyBySlot_eq_some answer.symm).1
  rw [← started] at onDuty
  refine validated_of_duty decoding ?_ (duty_authentic earlier onDuty)
  intro event membership
  exact parsed event (by simp [membership])

/-- In a run whose unchecked keys are valid every key in the storage passes the checks. -/
theorem stored_validated (decoding : KeyDecoding)
    (enabled : enabledBuilders builders = .ok config.wlistBuilders)
    (run : RunFrom config config.init trace world) (parsed : JsonParsed trace)
    (valid : UncheckedValid config trace) {key : BlsPublicKey}
    (stored : StoredKey world.store key) : key.Validated := by
  cases stored with
  | whitelisted listed =>
      rw [(run_frame run).1] at listed
      exact validated_of_whitelisted decoding enabled valid listed
  | registered found =>
      exact validated_of_registered decoding parsed (registration_authentic run found)
  | @registration pubkey registration found =>
      have authentic := registration_authentic run found
      rw [authentic.own]
      exact validated_of_registered decoding parsed authentic
  | onDuty listed => exact validated_of_duty decoding parsed (duty_authentic run listed)
  | bidKey found =>
      obtain ⟨event, membership, write⟩ := run.event_of_lookup bestBids_written rfl found
      obtain ⟨slot, call, rfl⟩ := of_bestWrite? write
      exact (validated_of_filed decoding enabled run parsed valid membership call).2
  | builder held =>
      obtain ⟨event, membership, slot, call⟩ := held.filed run
      exact (validated_of_filed decoding enabled run parsed valid membership call).1
  | proposer held =>
      obtain ⟨event, membership, slot, call⟩ := held.filed run
      exact (validated_of_filed decoding enabled run parsed valid membership call).2
  | response found =>
      obtain ⟨event, membership, write⟩ := run.event_of_lookup responses_written rfl found
      exact validated_of_responded decoding run parsed membership (of_responseWrite? write)

end Entered

/-- Where every stored key passes the checks, those that came unchecked are valid. -/
theorem uncheckedValid_of_validated (run : RunFrom config config.init trace world)
    (validated : AlwaysValidated config trace) : UncheckedValid config trace := by
  have valid : ∀ {key : BlsPublicKey}, key.Validated → key.point.Valid :=
    fun accepted => (BlsPublicKey.deserialize_eq_ok.mp accepted).2.2.2
  constructor
  · intro key listed
    exact valid (validated [] trace rfl key (.whitelisted listed))
  · intro event membership request bid own carried writes
    obtain ⟨⟨key, stored⟩, write⟩ := Option.isSome_iff_exists.mp writes
    obtain ⟨slot, call, _⟩ := of_bestWrite? write
    replace call : event.call = .storage (.setBestBid slot stored) := call
    obtain ⟨front, later, split⟩ := List.append_of_mem membership
    obtain ⟨_, _, submitted, _⟩ := setBestBid_event run split call
    rw [own] at submitted
    obtain rfl : bid = stored := Option.some.inj (carried.symm.trans submitted)
    have after : event.after = event.before.setBestBid slot bid := by
      rw [exec_leaves (run.executed membership), call]
      rfl
    have held : Held (storeAfter config.init (front ++ [event])) bid := by
      rw [storeAfter_concat, after]
      exact .perSlot (Finmap.lookup_insert _)
    exact valid (validated (front ++ [event]) later (by simp [split]) _ (.proposer held))

/-- What the entry paths make of keys, and when all keys in the storage pass the checks. -/
theorem stored_keys_validated_iff (decoding : KeyDecoding)
    {builders : List (FixedVector UInt8 48)}
    (enabled : enabledBuilders builders = .ok config.wlistBuilders)
    (run : RunFrom config config.init trace world) (parsed : JsonParsed trace) :
    (∀ text key, BlsPublicKey.fromStr text = .ok key → key.Validated) ∧
    (∀ bytes key, (BlsPublicKey.ofBytes bytes : Outcome Unit BlsPublicKey) = .ok key →
      (key.Validated ↔ key.point.Valid)) ∧
    (AlwaysValidated config trace ↔ UncheckedValid config trace) := by
  refine ⟨?_, ?_, ?_⟩
  · exact fun text key read => BlsPublicKey.validated_of_fromStr decoding read
  · intro bytes key made
    exact BlsPublicKey.validated_iff decoding (BlsPublicKey.ofBytes_eq_ok.mp made)
  · constructor
    · exact uncheckedValid_of_validated run
    · rintro valid front later rfl key stored
      obtain ⟨middle, shorter⟩ := run.prefix_run rfl
      rw [← shorter.store_eq] at stored
      refine stored_validated decoding enabled shorter ?_ ?_ stored
      · exact fun event membership => parsed event (List.mem_append_left _ membership)
      · exact ⟨valid.builders, fun event membership =>
          valid.proposers event (List.mem_append_left _ membership)⟩

end Runs

section Infinity

open Demo

def hexDigit (digit : Char) : Option UInt8 :=
  if '0' ≤ digit ∧ digit ≤ '9' then some (digit.toNat - '0'.toNat).toUInt8
  else if 'a' ≤ digit ∧ digit ≤ 'f' then some (digit.toNat - 'a'.toNat + 10).toUInt8
  else none

def hexBytes : List Char → Except String (List UInt8)
  | [] => .ok []
  | high :: low :: digits =>
      match hexDigit high, hexDigit low with
      | some high, some low => List.cons (16 * high + low) <$> hexBytes digits
      | _, _ => .error "invalid hex (InvalidHexCharacter)"
  | [_] => .error "invalid hex (OddLength)"

/-- A stand-in for the checks in which every point but infinity is in the subgroup. -/
@[reducible]
def standInKeys : KeyCrates where
  isInfinity point := decide (point.compressed.toList = infinityPublicKey)
  inGroup _ := true
  hexDecode text :=
    match text.toList with
    | '0' :: 'x' :: digits => hexBytes digits
    | _ => .error "hex must have 0x prefix"

attribute [local instance] standIn standInKeys

theorem standIn_keyDecoding : KeyDecoding where
  roundTrip bytes point _ := by
    unfold Crates.publicKeyFromBytes standIn
    simp only [FixedVector.new_toList]
  infinity point infinite := decide_eq_true infinite

/-- A trace of builder 2 whose proposer key is infinity. -/
def infinityTrace : BidTrace :=
  ⟨1, hash 1, hash 6, pubkey 2, ⟨⟨⟨infinityPublicKey, rfl⟩⟩⟩, ⟨.replicate 0⟩, 30000000, 0, 5⟩

/-- A submission over gRPC that carries this trace with the signature of builder 2. -/
def infinityProposer : Gen.SubmitBlockRequest where
  bidTrace := some {
    slot := 1
    parentHash := (Demo.hash 1).bytes.toList
    blockHash := (Demo.hash 6).bytes.toList
    builderPubkey := (pubkey 2).serialize
    proposerPubkey := infinityPublicKey
    proposerFeeRecipient := List.replicate 20 0
    gasLimit := 30000000
    gasUsed := 0
    value := "5" }
  executionPayload := some (payload 6).toWire
  signature :=
    (signWith (secretKey 2) config.forkData.computeBuilderDomain infinityTrace).serialize
  blobsBundle := some ⟨[], [], []⟩

@[irreducible]
def infinityFiled : Played Calls Request Reply InMemoryStorage :=
  play [.submitBlock infinityProposer] (List.replicate 7 2)

theorem infinityFiled_run :
    RunFrom config config.init infinityFiled.trace infinityFiled.world := by
  unfold infinityFiled
  exact playFrom_run _ _ _

/-- The text of the key of validator 3. -/
def pubkeyText : String :=
  .ofList ('0' :: 'x' :: (List.replicate 32 ['0', '3']).flatten ++ List.replicate 32 '0')

theorem infinityFiled_parsed : JsonParsed infinityFiled.trace := by
  have only : ∀ event ∈ infinityFiled.trace, ∀ key ∈ event.request.jsonKeys, key = pubkey 3 := by
    decide +kernel
  intro event membership key carried
  obtain rfl := only event membership key carried
  exact ⟨pubkeyText, by decide +kernel⟩

theorem enabled_demo : enabledBuilders [(pubkey 2).point.compressed] = .ok config.wlistBuilders := by
  decide +kernel

theorem infinityFiled_validated_iff :
    AlwaysValidated config infinityFiled.trace ↔ UncheckedValid config infinityFiled.trace :=
  (stored_keys_validated_iff standIn_keyDecoding enabled_demo infinityFiled_run
    infinityFiled_parsed).2.2

/-- The proposer key of the bid is stored although the checked deserialiser rejects it. -/
theorem infinity_stored :
    KeyDecoding ∧ enabledBuilders [(pubkey 2).point.compressed] = .ok config.wlistBuilders ∧
      RunFrom config config.init infinityFiled.trace infinityFiled.world ∧
      JsonParsed infinityFiled.trace ∧ ¬ AlwaysValidated config infinityFiled.trace := by
  refine ⟨standIn_keyDecoding, enabled_demo, infinityFiled_run, infinityFiled_parsed, ?_⟩
  intro validated
  have stored : (infinityFiled.world.store.bestBidPerSlot.lookup
      ⟨1, hash 1, infinityTrace.proposerPubkey⟩).isSome = true := by
    decide +kernel
  obtain ⟨bid, found⟩ := Option.isSome_iff_exists.mp stored
  have key : StoredKey infinityFiled.world.store infinityTrace.proposerPubkey := .bidKey found
  rw [infinityFiled_run.store_eq] at key
  have accepted := validated infinityFiled.trace [] (List.append_nil _).symm _ key
  exact (BlsPublicKey.deserialize_eq_ok.mp accepted).1 rfl

end Infinity

end MevRelay
