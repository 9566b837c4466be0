import MevRelay.Beacon.Api
import MevRelay.Relay.Delivery
import MevRelay.Relay.Headers
import MevRelay.Relay.Keys
import MevRelay.Relay.Proposers
import MevRelay.Relay.Startup

/-!
# Launching the relay

From the command line to the running relay: the fork data come from the chain
and the beacon node, or from the command line where the beacon node does not
tell them, and go to the storage, the gRPC service and the signer.
-/

namespace MevRelay

open Concurrent Ssz

/-- What the crates make of texts. -/
class HexCrates where
  /-- Decode hex digits; an error carries its message. -/
  decode : String → Except String (List UInt8)
  hash256FromStr : String → Except String Hash256

/-- The version of the fork. -/
structure ForkVersion where
  bytes : FixedVector UInt8 4
  deriving DecidableEq

/-- The named chains; those the relay does not know go by their names. -/
inductive NamedChain where
  | mainnet
  | goerli
  | holesky
  | sepolia
  | dev
  | other (name : String)

/-- Strip the prefix of a hex text as often as it stands there. -/
def trimHexPrefix : List Char → List Char
  | '0' :: 'x' :: text => trimHexPrefix text
  | text => text

/-- The builder fork data have the genesis version and no validators root. -/
def ForkDatas.fromGenesisAndCurrentVersion (genesisForkVersion currentVersion : FixedVector UInt8 4)
    (genesisValidatorsRoot : Hash256) : ForkDatas where
  builder := ⟨genesisForkVersion, .zero⟩
  proposer := ⟨currentVersion, genesisValidatorsRoot⟩

inductive AuthError where
  | requestError (message : String)
  | invalidSecret
  deriving DecidableEq

inductive StartUpErrors where
  | emptyBuilders
  | unauthorized (error : AuthError)
  | invalidChain (message : String)
  | setupStorage
  deriving DecidableEq

/-- Why the fork data could not be had from the beacon node. -/
inductive ForkDataReport where
  | handle (error : HandleError)
  | unreadable (message : String)

structure CliArgs where
  slotsPerEpoch : UInt64
  whiteListedBuilders : List (FixedVector UInt8 48)
  genesisForkVersion : ForkVersion
  currentForkVersion : ForkVersion
  genesisValidatorsRoot : Hash256
  chain : NamedChain
  blsSecretKey : Blst.SecretKey

/-- The builder fork data of the command line. -/
def CliArgs.forkDataBuilder (args : CliArgs) : ForkData :=
  ⟨args.genesisForkVersion.bytes, .zero⟩

def CliArgs.forkDataProposer (args : CliArgs) : ForkData :=
  ⟨args.currentForkVersion.bytes, args.genesisValidatorsRoot⟩

/-- The fork data of the command line, in case the beacon node does not tell them. -/
def CliArgs.forkData (args : CliArgs) : ForkDatas := ⟨args.forkDataBuilder, args.forkDataProposer⟩

/-- What the relay is started with and what it meets: the answer to the request
for the fork data, the stream of events, and whether there is an HTTP client
for the auth service. -/
structure Start where
  args : CliArgs
  forkReply : Except HandleError GetForkResponse
  stream : BeaconEventsStream
  auth : Except AuthError Unit

/-- The parts of a relay that has been launched. -/
structure Launched where
  storage : InMemoryStorage
  grpc : Grpc.RelayService
  signer : BlsSigner
  slotsPerEpoch : UInt64

section Texts

variable [HexCrates]

/-- A fork version from its hex text. -/
def ForkVersion.fromStr (text : String) : Except String ForkVersion := do
  let bytes ← (HexCrates.decode (.ofList (trimHexPrefix text.toList))).mapError
    ("Invalid fork version: " ++ ·)
  match FixedVector.new bytes with
  | some bytes => return ⟨bytes⟩
  | none => .error "Invalid fork version length"

/-- Get the genesis fork version based on the named chain. -/
def ForkVersion.tryFromChain (chain : NamedChain) : Except String ForkVersion := do
  let hexVersion ← match chain with
    | .mainnet => .ok "0x00000000"
    | .goerli => .ok "0x00001020"
    | .holesky => .ok "0x01017000"
    | .sepolia => .ok "0x90000069"
    | .dev => .ok "0x20000089"
    | .other name => .error ("Unsupported chain: " ++ name)
  fromStr hexVersion

/-- The genesis fork version of the chain, which need not be that of the command line. -/
def CliArgs.genesisForkVersionOfChain (args : CliArgs) : Except StartUpErrors ForkVersion :=
  (ForkVersion.tryFromChain args.chain).mapError .invalidChain

/-- The fork data of the chain, as the beacon node tells them. -/
def setupForkData (forkReply : Except HandleError GetForkResponse)
    (genesisForkVersion : ForkVersion) : Except ForkDataReport ForkDatas := do
  let forkData ← forkReply.mapError .handle
  let currentVersion ← (ForkVersion.fromStr forkData.data.fork.currentVersion).mapError .unreadable
  let genesisValidatorsRoot ←
    (HexCrates.hash256FromStr forkData.data.genesisValidatorsRoot).mapError .unreadable
  return .fromGenesisAndCurrentVersion genesisForkVersion.bytes currentVersion.bytes
    genesisValidatorsRoot

/-- The fork data that the relay is launched with: where the beacon node does not
tell them, those of the command line. -/
def Start.forkData (start : Start) (genesisForkVersion : ForkVersion) : ForkDatas :=
  match setupForkData start.forkReply genesisForkVersion with
  | .ok forkData => forkData
  | .error _ => start.args.forkData

variable [Crates]

/-- The builders that may submit bids.  A key that is no encoding of a point panics. -/
def CliArgs.enabledBuilders (args : CliArgs) : Outcome StartUpErrors (List BlsPublicKey) :=
  args.whiteListedBuilders.mapM' fun builder => BlsPublicKey.ofBytes builder.toList

/-- Start the relay, with a bounded number of polls for its first events. -/
def main (fuel : Nat) (start : Start) : Option (Outcome StartUpErrors Launched) :=
  match start.args.genesisForkVersionOfChain with
  | .error error => some (.err error)
  | .ok forkVersion =>
  match start.args.enabledBuilders with
  | .panicked => some .panicked
  | .err error => some (.err error)
  | .ok enabledBuilders =>
  if enabledBuilders.isEmpty then some (.err .emptyBuilders)
  else
  let forkData := start.forkData forkVersion
  match setupStorage fuel start.stream enabledBuilders forkData with
  | none => none
  | some (_, .panicked) => some .panicked
  | some (_, .err _) => some (.err .setupStorage)
  | some (_, .ok storage) =>
  match start.auth with
  | .error error => some (.err (.unauthorized error))
  | .ok () => some (.ok {
      storage
      grpc := ⟨forkData⟩
      signer := ⟨start.args.blsSecretKey, forkData⟩
      slotsPerEpoch := start.args.slotsPerEpoch })

end Texts

section Launching

variable [HexCrates] [Crates] {fuel : Nat} {start : Start} {relay : Launched}

/-- The parts are those of one configuration. -/
def Launched.config (relay : Launched) : Config where
  slot := relay.storage.slot
  payloadAttributes := relay.storage.payloadAttributes
  wlistBuilders := relay.storage.wlistBuilders
  forkData := relay.storage.forkData
  secretKey := relay.signer.secretKey
  slotsPerEpoch := relay.slotsPerEpoch

/-- What a launch that succeeds has gone through. -/
structure Launches (fuel : Nat) (start : Start) (relay : Launched)
    (genesisForkVersion : ForkVersion) (enabledBuilders : List BlsPublicKey) : Prop where
  chain : start.args.genesisForkVersionOfChain = .ok genesisForkVersion
  builders : start.args.enabledBuilders = .ok enabledBuilders
  nonempty : enabledBuilders ≠ []
  storage : ∃ consumed, setupStorage fuel start.stream enabledBuilders
    (start.forkData genesisForkVersion) = some (consumed, .ok relay.storage)
  auth : start.auth = .ok ()
  grpc : relay.grpc = ⟨start.forkData genesisForkVersion⟩
  signer : relay.signer = ⟨start.args.blsSecretKey, start.forkData genesisForkVersion⟩
  slotsPerEpoch : relay.slotsPerEpoch = start.args.slotsPerEpoch

theorem main_eq_ok_iff :
    main fuel start = some (.ok relay) ↔
      ∃ genesisForkVersion enabledBuilders, Launches fuel start relay genesisForkVersion
        enabledBuilders := by
  unfold main
  constructor
  · intro launched
    cases chain : start.args.genesisForkVersionOfChain with
    | error error => simp [chain] at launched
    | ok forkVersion =>
    cases builders : start.args.enabledBuilders with
    | panicked => simp [chain, builders] at launched
    | err error => simp [chain, builders] at launched
    | ok enabledBuilders =>
    cases nonempty : enabledBuilders.isEmpty with
    | true => simp [chain, builders, nonempty] at launched
    | false =>
    simp only [chain, builders, nonempty, Bool.false_eq_true, if_false] at launched
    cases ended : setupStorage fuel start.stream enabledBuilders (start.forkData forkVersion) with
    | none => simp [ended] at launched
    | some result =>
    obtain ⟨consumed, storage | error | _⟩ := result
    case err | panicked => simp [ended] at launched
    cases auth : start.auth with
    | error error => simp [ended, auth] at launched
    | ok _ =>
    simp only [ended, auth, Option.some.injEq, Outcome.ok.injEq] at launched
    subst launched
    refine ⟨forkVersion, enabledBuilders, chain, builders, ?_, ⟨consumed, ended⟩, auth, rfl, rfl, rfl⟩
    simpa using nonempty
  · rintro ⟨forkVersion, enabledBuilders, chain, builders, nonempty, ⟨consumed, ended⟩, auth, grpc,
      signer, slotsPerEpoch⟩
    have some : enabledBuilders.isEmpty = false := by simpa using nonempty
    simp only [chain, builders, some, Bool.false_eq_true, if_false]
    simp only [ended, auth, Option.some.injEq, Outcome.ok.injEq]
    cases relay
    cases grpc
    cases signer
    cases slotsPerEpoch
    rfl

omit [Crates] in
theorem setupForkData_eq_ok {forkReply : Except HandleError GetForkResponse}
    {genesisForkVersion : ForkVersion} {forkData : ForkDatas} :
    setupForkData forkReply genesisForkVersion = .ok forkData ↔
      ∃ answer currentVersion genesisValidatorsRoot, forkReply = .ok answer ∧
        ForkVersion.fromStr answer.data.fork.currentVersion = .ok currentVersion ∧
        HexCrates.hash256FromStr answer.data.genesisValidatorsRoot = .ok genesisValidatorsRoot ∧
        forkData = .fromGenesisAndCurrentVersion genesisForkVersion.bytes currentVersion.bytes
          genesisValidatorsRoot := by
  simp only [setupForkData, except_bind_eq_ok, mapError_eq_ok]
  constructor
  · rintro ⟨answer, replied, currentVersion, version, root, read, made⟩
    cases made
    exact ⟨answer, currentVersion, root, replied, version, read, rfl⟩
  · rintro ⟨answer, currentVersion, root, replied, version, read, rfl⟩
    exact ⟨answer, replied, currentVersion, version, root, read, rfl⟩

/-- The beacon node has told the current fork version and the validators root. -/
def Start.Told (start : Start) (currentVersion : ForkVersion) (genesisValidatorsRoot : Hash256) :
    Prop :=
  ∃ answer, start.forkReply = .ok answer ∧
    ForkVersion.fromStr answer.data.fork.currentVersion = .ok currentVersion ∧
    HexCrates.hash256FromStr answer.data.genesisValidatorsRoot = .ok genesisValidatorsRoot

omit [Crates] in
/-- The fork data of the chain where the beacon node has told them, and those of
the command line otherwise. -/
theorem Start.forkData_cases (start : Start) (genesisForkVersion : ForkVersion) :
    (∃ currentVersion genesisValidatorsRoot, start.Told currentVersion genesisValidatorsRoot ∧
      start.forkData genesisForkVersion = .fromGenesisAndCurrentVersion genesisForkVersion.bytes
        currentVersion.bytes genesisValidatorsRoot) ∨
    (∀ currentVersion genesisValidatorsRoot, ¬ start.Told currentVersion genesisValidatorsRoot) ∧
      start.forkData genesisForkVersion = start.args.forkData := by
  unfold Start.forkData
  cases told : setupForkData start.forkReply genesisForkVersion with
  | ok forkData =>
      obtain ⟨answer, currentVersion, root, replied, version, read, made⟩ :=
        setupForkData_eq_ok.mp told
      exact .inl ⟨currentVersion, root, ⟨answer, replied, version, read⟩, made⟩
  | error report =>
      refine .inr ⟨?_, rfl⟩
      rintro currentVersion root ⟨answer, replied, version, read⟩
      have succeeded : setupForkData start.forkReply genesisForkVersion = .ok _ :=
        setupForkData_eq_ok.mpr ⟨answer, currentVersion, root, replied, version, read, rfl⟩
      rw [told] at succeeded
      cases succeeded

variable {genesisForkVersion : ForkVersion} {enabledBuilders : List BlsPublicKey}

/-- A launch builds the storage, the service and the signer of one configuration. -/
theorem Launches.parts (launches : Launches fuel start relay genesisForkVersion enabledBuilders) :
    relay.storage = relay.config.init ∧ relay.grpc = relay.config.service ∧
      relay.signer = relay.config.signer ∧
      relay.config.wlistBuilders = enabledBuilders ∧
      relay.config.forkData = start.forkData genesisForkVersion ∧
      relay.config.secretKey = start.args.blsSecretKey := by
  obtain ⟨consumed, ended⟩ := launches.storage
  obtain ⟨_, slot, attrs, _, _, made⟩ := of_setupStorage ended
  have grpc := launches.grpc
  have signer := launches.signer
  obtain ⟨storage, service, blsSigner, slotsPerEpoch⟩ := relay
  cases made
  cases grpc
  cases signer
  exact ⟨rfl, rfl, rfl, rfl, rfl, rfl⟩

/-- Everything in a run has been checked against these fork data and builders,
and signed under these fork data. -/
structure ChecksAgainst (forks : ForkDatas) (builders : List BlsPublicKey)
    (secretKey : Blst.SecretKey) (trace : List RelayEvent) (world : RelayWorld) : Prop where
  bids : ∀ task bid, AcceptedBy world task bid → bid.message.builderPubkey ∈ builders ∧
    bid.message.verifySignature bid.signature forks.computeBuilderDomain = true
  registrations : ∀ pubkey registration,
    world.store.validatorRegistrations.lookup pubkey = some registration →
      registration.signature.verify pubkey
        (signingRoot registration.message forks.computeBuilderDomain) = true
  headers : ∀ (task : Nat) slot parentHash pubkey served, world.tasks[task]? =
      some ⟨.getHeader slot parentHash pubkey, .done (.getHeader (.ok served))⟩ →
    served.data.message.pubkey = publicKeyOf secretKey ∧
      served.data.signature = BlsSigner.sign ⟨secretKey, forks⟩ served.data.message
  blocks : ∀ (task : Nat) block served, world.tasks[task]? =
      some ⟨.postBlindedBlocks block, .done (.postBlindedBlocks (.ok served))⟩ →
    ∃ duty : Validator,
      AtMoment trace task (.findDutyBySlot block.message.slot)
        (fun store => store.findDutyBySlot block.message.slot = some duty) ∧
      block.signature.verify duty.pubkey
        (signingRoot block.message forks.computeProposerDomain) = true

variable {trace : List RelayEvent} {world : RelayWorld}

omit [HexCrates] in
theorem checksAgainst_of_run {config : Config} (run : RunFrom config config.init trace world) :
    ChecksAgainst config.forkData config.wlistBuilders config.secretKey trace world where
  bids task bid accepted := by
    have authentic := authentic_of_accepted run accepted
    obtain ⟨whitelist, forks, _⟩ := run_frame run
    exact ⟨whitelist ▸ authentic.whitelisted, forks ▸ authentic.signed⟩
  registrations pubkey registration stored := (registration_authentic run stored).signed
  headers task slot parentHash pubkey served returned := by
    obtain ⟨result, same, _, facts⟩ := run.outline_atResult (holds_handler config) returned
    cases same
    obtain ⟨_, ⟨bid, _, made⟩, _⟩ := facts served rfl
    exact (SignedHeader.of_tryFrom made).2.2.2
  blocks task block served returned := by
    obtain ⟨own, reads, duty, same, found, made⟩ :=
      outline_returned (run.outline_atResult (holds_handler config) returned)
    cases same
    have delivered := delivered_of_lookedUp run made found
    exact ⟨duty, delivered.onDuty, delivered.signed⟩

/-- What the operator launches the relay with is what everything is checked
against in every run. -/
theorem launched_relay_checks (launched : main fuel start = some (.ok relay))
    (run : RunFrom relay.config relay.storage trace world) :
    ∃ genesisForkVersion enabledBuilders,
      start.args.genesisForkVersionOfChain = .ok genesisForkVersion ∧
      start.args.enabledBuilders = .ok enabledBuilders ∧ enabledBuilders ≠ [] ∧
      ((∃ currentVersion genesisValidatorsRoot, start.Told currentVersion genesisValidatorsRoot ∧
          start.forkData genesisForkVersion = .fromGenesisAndCurrentVersion
            genesisForkVersion.bytes currentVersion.bytes genesisValidatorsRoot) ∨
        (∀ currentVersion genesisValidatorsRoot,
          ¬ start.Told currentVersion genesisValidatorsRoot) ∧
          start.forkData genesisForkVersion = start.args.forkData) ∧
      ChecksAgainst (start.forkData genesisForkVersion) enabledBuilders start.args.blsSecretKey
        trace world := by
  obtain ⟨genesisForkVersion, enabledBuilders, launches⟩ := main_eq_ok_iff.mp launched
  obtain ⟨fresh, _, _, builders, forks, secretKey⟩ := launches.parts
  rw [fresh] at run
  have checks := checksAgainst_of_run run
  rw [builders, forks, secretKey] at checks
  exact ⟨_, _, launches.chain, launches.builders, launches.nonempty,
    start.forkData_cases genesisForkVersion, checks⟩

end Launching

section Adequacy

theorem enabledBuilders_eq_ok [Crates] {args : CliArgs} {enabledBuilders : List BlsPublicKey} :
    args.enabledBuilders = .ok enabledBuilders ↔
      List.Forall₂ (fun bytes key => Crates.publicKeyFromBytes bytes.toList = .ok key.point)
        args.whiteListedBuilders enabledBuilders := by
  unfold CliArgs.enabledBuilders
  induction args.whiteListedBuilders generalizing enabledBuilders with
  | nil =>
      simp only [List.mapM'_nil, Outcome.pure_eq_ok, Outcome.ok.injEq, List.forall₂_nil_left_iff]
      exact eq_comm
  | cons bytes rest inductionHypothesis =>
      simp only [List.mapM'_cons, Outcome.bind_eq_ok, Outcome.pure_eq_ok, Outcome.ok.injEq,
        List.forall₂_cons_left_iff, BlsPublicKey.ofBytes_eq_ok]
      constructor
      · rintro ⟨key, decoded, keys, others, rfl⟩
        exact ⟨key, keys, decoded, inductionHypothesis.mp others, rfl⟩
      · rintro ⟨key, keys, decoded, others, rfl⟩
        exact ⟨key, decoded, keys, inductionHypothesis.mpr others, rfl⟩

/-- What the relay relies on: the digits of bytes are decoded to these bytes. -/
def HexDecoding [HexCrates] : Prop :=
  ∀ bytes, HexCrates.decode (.ofList (hexDigits bytes)) = .ok bytes

theorem trimHexPrefix_hexDigits (bytes : List UInt8) :
    trimHexPrefix (hexDigits bytes) = hexDigits bytes := by
  cases bytes with
  | nil => rfl
  | cons byte rest =>
      have digits : ∀ digit < 16, Nat.digitChar digit ≠ 'x' := by decide
      have second := digits (byte.toNat % 16) (Nat.mod_lt _ (by decide))
      rw [hexDigits, List.flatMap_cons, List.cons_append, List.cons_append]
      unfold trimHexPrefix
      split
      · rename_i same
        exact absurd (List.cons.inj (List.cons.inj same).2).1 second
      · rfl

/-- A version is read from its digits after the prefix. -/
theorem ForkVersion.fromStr_hexDigits [HexCrates] (decoding : HexDecoding) (version : ForkVersion) :
    fromStr (.ofList ('0' :: 'x' :: hexDigits version.bytes.toList)) = .ok version := by
  have digits : trimHexPrefix ('0' :: 'x' :: hexDigits version.bytes.toList) =
      hexDigits version.bytes.toList := trimHexPrefix_hexDigits _
  simp only [fromStr, String.toList_ofList, digits, decoding version.bytes.toList]
  exact congrArg (fun bytes => match bytes with
    | some bytes => Except.ok (⟨bytes⟩ : ForkVersion)
    | none => .error "Invalid fork version length") (FixedVector.new_toList version.bytes)

/-- The genesis fork versions of the chains the relay knows. -/
def NamedChain.genesisVersion? : NamedChain → Option ForkVersion
  | .mainnet => some ⟨⟨[0x00, 0x00, 0x00, 0x00], rfl⟩⟩
  | .goerli => some ⟨⟨[0x00, 0x00, 0x10, 0x20], rfl⟩⟩
  | .holesky => some ⟨⟨[0x01, 0x01, 0x70, 0x00], rfl⟩⟩
  | .sepolia => some ⟨⟨[0x90, 0x00, 0x00, 0x69], rfl⟩⟩
  | .dev => some ⟨⟨[0x20, 0x00, 0x00, 0x89], rfl⟩⟩
  | .other _ => none

/-- Every version text of a chain can be read. -/
theorem ForkVersion.tryFromChain_eq_ok [HexCrates] (decoding : HexDecoding) {chain : NamedChain}
    {version : ForkVersion} :
    tryFromChain chain = .ok version ↔ chain.genesisVersion? = some version := by
  have read : ∀ (text : String) (known : ForkVersion),
      text = .ofList ('0' :: 'x' :: hexDigits known.bytes.toList) →
        (fromStr text = .ok version ↔ some known = some version) := by
    rintro text known rfl
    rw [fromStr_hexDigits decoding, Except.ok.injEq, Option.some.injEq]
  cases chain with
  | mainnet => exact read "0x00000000" _ (by decide)
  | goerli => exact read "0x00001020" _ (by decide)
  | holesky => exact read "0x01017000" _ (by decide)
  | sepolia => exact read "0x90000069" _ (by decide)
  | dev => exact read "0x20000089" _ (by decide)
  | other name => constructor <;> rintro ⟨⟩

variable [Crates]

omit [Crates] in
theorem exists_forall₂_iff {First Second : Type} {related : First → Second → Prop}
    {seconds : List Second} :
    (∃ firsts, List.Forall₂ related firsts seconds) ↔
      ∀ second ∈ seconds, ∃ first, related first second := by
  induction seconds with
  | nil => simp
  | cons second seconds inductionHypothesis =>
      simp only [List.forall₂_cons_right_iff, List.forall_mem_cons, ← inductionHypothesis]
      constructor
      · rintro ⟨_, first, firsts, one, rest, rfl⟩
        exact ⟨⟨first, one⟩, firsts, rest⟩
      · rintro ⟨⟨first, one⟩, firsts, rest⟩
        exact ⟨_, first, firsts, one, rest, rfl⟩

/-- A relay as it comes out of a launch: a fresh storage, and parts that agree. -/
structure Launched.WellFormed (relay : Launched) : Prop where
  fresh : relay.storage = relay.config.init
  grpc : relay.grpc = relay.config.service
  signer : relay.signer = relay.config.signer
  nonempty : relay.storage.wlistBuilders ≠ []
  decoded : ∀ key ∈ relay.storage.wlistBuilders, ∃ bytes : FixedVector UInt8 48,
    Crates.publicKeyFromBytes bytes.toList = .ok key.point
  root : relay.storage.forkData.builder.genesisValidatorsRoot = .zero

/-- A stream that gives the attributes and then the head. -/
def announcing (slot : HeadSlot) (attrs : PayloadAttributes) : BeaconEventsStream where
  payloadAttributes
    | 0 => .ready (some (.ok ⟨attrs⟩))
    | _ => .pending
  newHead _ := .ready (some (.ok ⟨slot.slot⟩))

omit [Crates] in
theorem setupStorage_announcing (slot : HeadSlot) (attrs : PayloadAttributes)
    (wlistBuilders : List BlsPublicKey) (forkData : ForkDatas) :
    setupStorage 2 (announcing slot attrs) wlistBuilders forkData =
      some ([some (.payloadAttribute ⟨attrs⟩), some (.head ⟨slot.slot⟩)],
        .ok (.new slot attrs wlistBuilders forkData ∅ [])) := rfl

/-- A start for a relay: the beacon node tells nothing, so that the fork data are
those of the command line. -/
def Launched.start (relay : Launched) (listed : List (FixedVector UInt8 48)) : Start where
  args := {
    slotsPerEpoch := relay.slotsPerEpoch
    whiteListedBuilders := listed
    genesisForkVersion := ⟨relay.storage.forkData.builder.currentVersion⟩
    currentForkVersion := ⟨relay.storage.forkData.proposer.currentVersion⟩
    genesisValidatorsRoot := relay.storage.forkData.proposer.genesisValidatorsRoot
    chain := .mainnet
    blsSecretKey := relay.signer.secretKey }
  forkReply := .error .brokenSendChannel
  stream := announcing relay.storage.slot relay.storage.payloadAttributes
  auth := .ok ()

/-- The relays that can be launched are the well-formed ones. -/
theorem launchable_iff [HexCrates] (decoding : HexDecoding) (relay : Launched) :
    (∃ fuel start, main fuel start = some (.ok relay)) ↔ relay.WellFormed := by
  constructor
  · rintro ⟨fuel, start, launched⟩
    obtain ⟨genesisForkVersion, enabledBuilders, launches⟩ := main_eq_ok_iff.mp launched
    obtain ⟨fresh, grpc, signer, builders, forks, _⟩ := launches.parts
    have whitelist : relay.storage.wlistBuilders = enabledBuilders := builders
    refine ⟨fresh, grpc, signer, ?_, ?_, ?_⟩
    · rw [whitelist]
      exact launches.nonempty
    · rw [whitelist]
      exact exists_forall₂_iff.mp ⟨_, enabledBuilders_eq_ok.mp launches.builders⟩
    · have same : relay.storage.forkData = start.forkData genesisForkVersion := forks
      rw [same]
      rcases start.forkData_cases genesisForkVersion with ⟨_, _, _, told⟩ | ⟨_, untold⟩
      · rw [told]
        rfl
      · rw [untold]
        rfl
  · intro wellFormed
    obtain ⟨listed, decoded⟩ := exists_forall₂_iff.mpr wellFormed.decoded
    have chain : (relay.start listed).args.genesisForkVersionOfChain =
        .ok ⟨⟨[0x00, 0x00, 0x00, 0x00], rfl⟩⟩ :=
      mapError_eq_ok.mpr ((ForkVersion.tryFromChain_eq_ok decoding).mpr rfl)
    have forks : ∀ version, (relay.start listed).forkData version = relay.storage.forkData := by
      intro version
      exact congrArg (fun root => ForkDatas.mk ⟨relay.storage.forkData.builder.currentVersion, root⟩
        relay.storage.forkData.proposer) wellFormed.root.symm
    refine ⟨2, relay.start listed, main_eq_ok_iff.mpr ⟨_, relay.storage.wlistBuilders, {
      chain
      builders := enabledBuilders_eq_ok.mpr decoded
      nonempty := wellFormed.nonempty
      storage := ?_
      auth := rfl
      grpc := ?_
      signer := ?_
      slotsPerEpoch := rfl }⟩⟩
    · have setUp := setupStorage_announcing relay.storage.slot relay.storage.payloadAttributes
        relay.storage.wlistBuilders relay.storage.forkData
      rw [← show relay.storage = .new relay.storage.slot relay.storage.payloadAttributes
        relay.storage.wlistBuilders relay.storage.forkData ∅ [] from wellFormed.fresh] at setUp
      rw [forks]
      exact ⟨_, setUp⟩
    · rw [forks, wellFormed.grpc]
      rfl
    · rw [forks, wellFormed.signer]
      rfl

end Adequacy

section Demo

open Demo

/-- A stand-in for the crates that reads hex digits. -/
@[reducible]
def standInHex : HexCrates where
  decode text := hexBytes text.toList
  hash256FromStr text := do
    let bytes ← hexBytes (trimHexPrefix text.toList)
    match FixedVector.new bytes with
    | some bytes => return ⟨bytes⟩
    | none => .error "Invalid input length"

attribute [local instance] standIn standInHex

theorem standInHex_decoding : HexDecoding := by
  have digits : ∀ digit < 16, hexDigit (Nat.digitChar digit) = some digit.toUInt8 := by decide
  intro bytes
  change hexBytes (String.toList (.ofList (hexDigits bytes))) = .ok bytes
  rw [String.toList_ofList]
  induction bytes with
  | nil => rfl
  | cons byte rest inductionHypothesis =>
      have high := digits (byte.toNat / 16) (by have := byte.toNat_lt; omega)
      have low := digits (byte.toNat % 16) (Nat.mod_lt _ (by decide))
      have whole : 16 * (byte.toNat / 16).toUInt8 + (byte.toNat % 16).toUInt8 = byte := by
        apply UInt8.toNat_inj.mp
        have bound := byte.toNat_lt
        simp
        omega
      rw [hexDigits, List.flatMap_cons, List.cons_append, List.cons_append, List.nil_append,
        ← hexDigits]
      simp only [hexBytes, high, low, inductionHypothesis, whole]
      rfl

/-- The parts of the demonstration. -/
def demoRelay : Launched := ⟨config.init, config.service, config.signer, config.slotsPerEpoch⟩

theorem demo_launchable : ∃ fuel start, main fuel start = some (.ok demoRelay) := by
  apply (launchable_iff standInHex_decoding demoRelay).mpr
  refine ⟨rfl, rfl, rfl, List.cons_ne_nil _ _, fun key whitelisted => ?_, rfl⟩
  obtain rfl := List.mem_singleton.mp whitelisted
  exact ⟨(pubkey 2).point.compressed, by decide +kernel⟩

/-- The beacon node tells the current version and the validators root. -/
def demoStart : Start where
  args := {
    slotsPerEpoch := 32
    whiteListedBuilders := [(pubkey 2).point.compressed]
    genesisForkVersion := ⟨.replicate 7⟩
    currentForkVersion := ⟨.replicate 7⟩
    genesisValidatorsRoot := Demo.hash 7
    chain := .mainnet
    blsSecretKey := secretKey 9 }
  forkReply := .ok ⟨⟨"0", .ofList ('0' :: 'x' :: List.replicate 64 '0'), ⟨"0x01010101"⟩⟩⟩
  stream := announcing ⟨0⟩ Demo.attributes
  auth := .ok ()

theorem demo_launched : main 2 demoStart = some (.ok demoRelay) := by
  have told : demoStart.forkData ⟨⟨[0x00, 0x00, 0x00, 0x00], rfl⟩⟩ = config.forkData := by
    decide +kernel
  refine main_eq_ok_iff.mpr ⟨⟨⟨[0x00, 0x00, 0x00, 0x00], rfl⟩⟩, config.wlistBuilders, {
    chain := mapError_eq_ok.mpr ((ForkVersion.tryFromChain_eq_ok standInHex_decoding).mpr rfl)
    builders := by decide +kernel
    nonempty := List.cons_ne_nil _ _
    storage := ⟨_, (congrArg (setupStorage 2 demoStart.stream config.wlistBuilders) told).trans
      (setupStorage_announcing ⟨0⟩ Demo.attributes config.wlistBuilders config.forkData)⟩
    auth := rfl
    grpc := congrArg Grpc.RelayService.mk told.symm
    signer := congrArg (BlsSigner.mk (secretKey 9)) told.symm
    slotsPerEpoch := rfl }⟩

/-- The bid that the launched relay accepts is signed under the version of the
chain, not the one of the command line. -/
theorem demo_relay_checks :
    AcceptedBy submitted.world 2 (bid 5 6) ∧
    ∃ genesisForkVersion, ForkVersion.tryFromChain .mainnet = .ok genesisForkVersion ∧
      (bid 5 6).message.verifySignature (bid 5 6).signature
        (demoStart.forkData genesisForkVersion).computeBuilderDomain = true := by
  have run : RunFrom demoRelay.config demoRelay.storage submitted.trace submitted.world :=
    playFrom_run _ _ _
  have accepted : AcceptedBy submitted.world 2 (bid 5 6) :=
    ⟨.postBids (bid 5 6), .postBids (.ok ()), World.returned?_eq_some.mp (by decide +kernel),
      rfl, rfl⟩
  obtain ⟨genesisForkVersion, _, chain, _, _, _, checks⟩ := launched_relay_checks demo_launched run
  exact ⟨accepted, genesisForkVersion, mapError_eq_ok.mp chain, (checks.bids 2 _ accepted).2⟩

end Demo

end MevRelay
