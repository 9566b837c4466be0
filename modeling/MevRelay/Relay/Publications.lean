import MevRelay.Beacon.Api
import MevRelay.Relay.Delivery
import MevRelay.Relay.Keys
import MevRelay.Relay.Unblinding

/-!
# Publications

What the relay hands over for publication is posted to the beacon node as
bytes.  Blinded blocks come in as texts; where infinity is written in one way
only, the beacon node reads back what the relay has put together.
-/

namespace MevRelay

open Concurrent Ssz

section Texts

variable [Crates] [KeyCrates]

/-- A signature parsed from a text, in which infinity is compressed. -/
def BlsSignature.Parsed (signature : BlsSignature) : Prop :=
  ∃ text bytes, KeyCrates.hexDecode text = .ok bytes ∧ deserialize bytes = .ok signature ∧
    CompressedInfinity bytes

theorem BlsSignature.Parsed.canonical {signature : BlsSignature} (parsed : signature.Parsed)
    (decoding : SignatureDecoding) : signature.Canonical := by
  obtain ⟨_, bytes, _, accepted, compressed⟩ := parsed
  exact (canonical_deserialize_iff decoding accepted).mpr compressed

/-- The signatures and keys of a blinded block are parsed from texts.  Its
operations are those of the block under any payload. -/
structure SignedBlindedBlock.Parsed (block : SignedBlindedBlock) : Prop where
  signature : block.signature.Parsed
  signatures : ∀ payload, ∀ signature ∈ (BeaconBlockBody.new payload block.message.body).signatures,
    signature.Parsed
  keys : ∀ payload, ∀ key ∈ (BeaconBlockBody.new payload block.message.body).keys,
    ∃ text, BlsPublicKey.fromStr text = .ok key

theorem checked_unblind (keys : KeyDecoding) (signatures : SignatureDecoding)
    {block : SignedBlindedBlock} (parsed : block.Parsed) {response : BlindedBlockResponse}
    (proofs : ∀ deposit ∈ block.message.body.deposits.toList, deposit.proof.Fits)
    (blobs : ∀ blob ∈ response.blobsBundle.blobs.toList, blob.Fits) :
    (block.unblind response).Checked where
  signature := parsed.signature.canonical signatures
  signatures signature listed := (parsed.signatures _ signature listed).canonical signatures
  keys key listed := by
    obtain ⟨text, read⟩ := parsed.keys _ key listed
    exact BlsPublicKey.validated_of_fromStr keys read
  proofs := proofs
  blobs := blobs

end Texts

section Runs

variable [Crates] [KeyCrates] [JsonCrates] {config : Config} {trace front later : List RelayEvent}
  {world : RelayWorld} {event : RelayEvent}

/-- Every publication is posted as bytes that the beacon node reads back as the
block whose message the proposer on duty has signed, with the payload of an
accepted bid. -/
theorem published_as_bytes (keys : KeyDecoding) (signatures : SignatureDecoding)
    (api : BeaconNodeApi) (run : RunFrom config config.init trace world)
    (split : trace = front ++ event :: later) {block : SignedBlindedBlock}
    (request : event.request = .postBlindedBlocks block) (parsed : block.Parsed)
    (proofs : ∀ deposit ∈ block.message.body.deposits.toList, deposit.proof.Fits)
    {content : SignedBeaconBlockContent} {submissionType : SubmissionType}
    (publishes : event.call = .publishBlock content submissionType)
    (blobs : ∀ blob ∈ content.blobs.toList, blob.Fits)
    (short : (asSszBytes content).length < 2 ^ 32) :
    let sent := api.request (.publishBlock content submissionType)
    sent.method = .post ∧ sent.url = api.url ++ "eth/v1/beacon/blocks" ∧
      sent.headers =
        [("Eth-Consensus-Version", "deneb"), ("Content-Type", "application/octet-stream")] ∧
      ofSszBytes sent.body = some content ∧
      ∃ duty response, content = block.unblind response ∧
        Delivered config front event.task block duty response := by
  have allowed := run.outline_atCall (holds_handler config) split
  rw [publishes] at allowed
  obtain ⟨own, duty, response, same, found, rfl, rfl⟩ := outline_publishBlock allowed
  cases request.symm.trans same
  have admissible := SignedBeaconBlockContent.admissible_iff.mpr
    (checked_unblind keys signatures parsed proofs blobs)
  obtain ⟨middle, shorter⟩ := run.prefix_run split
  refine ⟨rfl, rfl, rfl, ?_, duty, response, rfl, ?_⟩
  · exact ofSszBytes_append _ admissible short
  · exact delivered_of_lookedUp shorter (List.append_nil _).symm found

end Runs

section Posted

open Demo

attribute [local instance] standIn standInKeys standInJson

theorem standIn_signatureFromBytes_eq_ok {bytes : List UInt8} {point : Blst.Signature} :
    Crates.signatureFromBytes bytes = .ok point ↔
      bytes.all (· = 0) = false ∧ point.compressed.toList = bytes := by
  simp only [Crates.signatureFromBytes]
  cases zeros : bytes.all (· = 0) with
  | true => simp
  | false =>
      simp only [Bool.false_eq_true, if_false, true_and]
      constructor
      · intro decoded
        split at decoded
        case h_1 compressed made =>
          cases decoded
          exact FixedVector.toList_of_new made
        case h_2 => cases decoded
      · rintro rfl
        simp only [FixedVector.new_toList]

theorem sealedBytes_nonzero (key : FixedVector UInt8 48) (message : Hash256) :
    (sealedBytes key message).toList.all (· = 0) = false := by
  have fits : (key.toList ++ message.bytes.toList ++ [1]).length ≤ 96 := by
    simp [key.length_eq, message.bytes.length_eq]
  simp only [sealedBytes, FixedVector.resize, List.take_of_length_le fits]
  simp

theorem standIn_signatureDecoding : SignatureDecoding where
  roundTrip bytes point decoded := by
    obtain ⟨nonzero, same⟩ := standIn_signatureFromBytes_eq_ok.mp decoded
    exact standIn_signatureFromBytes_eq_ok.mpr ⟨same ▸ nonzero, rfl⟩
  signed _ _ := standIn_signatureFromBytes_eq_ok.mpr ⟨sealedBytes_nonzero _ _, rfl⟩
  infinity := rfl
  zeros point decoded := by
    have nonzero := (standIn_signatureFromBytes_eq_ok.mp decoded).1
    exact absurd nonzero (by decide)

/-- The text of bytes. -/
def hexText (bytes : List UInt8) : String := .ofList ('0' :: 'x' :: hexDigits bytes)

theorem parsed_of_hexText {signature : BlsSignature}
    (read : KeyCrates.hexDecode (hexText signature.serialize) = .ok signature.serialize)
    (accepted : BlsSignature.deserialize signature.serialize = .ok signature) :
    signature.Parsed :=
  ⟨_, _, read, accepted, fun infinite => (standIn_signatureFromBytes_eq_ok.mp infinite).2.symm⟩

theorem demoBlock_parsed : demoBlock.Parsed where
  signature := parsed_of_hexText (by decide +kernel) (by decide +kernel)
  signatures := by
    have empty : BlsSignature.empty.Parsed :=
      parsed_of_hexText (by decide +kernel) (by decide +kernel)
    intro payload signature listed
    have own : signature = .empty := by
      simpa [demoBlock, blindedBlock, BeaconBlockBody.new, BeaconBlockBody.signatures,
        UncheckedList.empty, BlsSignature.empty] using listed
    rw [own]
    exact empty
  keys := by
    intro payload key listed
    simp [demoBlock, blindedBlock, BeaconBlockBody.new, BeaconBlockBody.keys,
      UncheckedList.empty] at listed

/-- The block that proposer 3 has sent is posted with payload 6, and read back. -/
theorem redeemed_published_as_bytes :
    KeyDecoding ∧ SignatureDecoding ∧ demoBlock.Parsed ∧
    ∃ publish ∈ (redeemed 6).trace, ∃ content : SignedBeaconBlockContent,
      publish.call = .publishBlock content .ssz ∧ content.executionPayload = payload 6 ∧
      ofSszBytes (localNode.request (.publishBlock content .ssz)).body = some content := by
  refine ⟨standIn_keyDecoding, standIn_signatureDecoding, demoBlock_parsed, ?_⟩
  have returned : (redeemed 6).world.tasks[3]? = some ⟨.postBlindedBlocks demoBlock,
      .done (.postBlindedBlocks (.ok ⟨.deneb, (bid 5 6).toBlindedBlockResponse⟩))⟩ :=
    World.returned?_eq_some.mp (by decide +kernel)
  obtain ⟨_, same, publish, membership, own, publishes⟩ :=
    publish_of_returned (redeemed_run 6) returned
  cases same
  have request := (redeemed_run 6).request_of_task membership own returned
  obtain ⟨front, later, split⟩ := List.append_of_mem membership
  have short : (asSszBytes (demoBlock.unblind (bid 5 6).toBlindedBlockResponse)).length < 2 ^ 32 := by
    decide +kernel
  obtain ⟨_, _, _, readBack, _⟩ := published_as_bytes standIn_keyDecoding
    standIn_signatureDecoding localNode (redeemed_run 6) split request demoBlock_parsed
    (fun _ listed => absurd listed List.not_mem_nil) publishes
    (fun _ listed => absurd listed List.not_mem_nil) short
  exact ⟨publish, membership, _, publishes, rfl, readBack⟩

end Posted

end MevRelay
