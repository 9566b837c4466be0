import MevRelay.Storage.Calls

/-!
# Beacon events

What the relay service does on head and payload attributes events, and the
refresh of the duties that a head event may start.
-/

namespace MevRelay

open Concurrent

/-- On a new head: store its slot, and start a refresh every 32 slots. -/
def onHeadEvent (slot : UInt64) : Program Calls Unit := do
  let headSlot : HeadSlot := ⟨slot⟩
  storage (.setHeadSlot headSlot)
  if slot % 32 = 0 then
    call (.spawnRefresh headSlot)

/-- On new payload attributes: count the parent block, then store them. -/
def onPayloadAttributes (attrs : PayloadAttributes) : Program Calls Unit := do
  storage (.recordRelayedBlock attrs.parentBlockHash)
  storage (.writePayloadAttributes attrs)

variable [Crates]

/-- The duties of the registered validators, in order. -/
def registeredDuties :
    List ProposerDutiesData → List Validator → Program Calls (Outcome Unit (List Validator))
  | [], validators => return .ok validators
  | duty :: rest, validators => do
      match (BlsPublicKey.ofBytes duty.pubkey : Outcome Unit BlsPublicKey) with
      | .panicked => return .panicked
      | .err error => return .err error
      | .ok pubkey =>
          match ← storage (.readValidatorRegistration pubkey) with
          | none => registeredDuties rest validators
          | some entry =>
              registeredDuties rest (validators ++ [⟨duty.slot, duty.validatorIndex, entry⟩])

/-- Helper function to format the duties into a storable format. -/
def intoDuties (duties : List ProposerDutiesData) :
    Program Calls (Outcome Unit (List Validator)) := do
  if ← storage .emptyValidatorRegs then
    return .ok []
  registeredDuties duties []

/-- Refresh the duties of the epoch of the head and of the next one.  An error
reply leaves the stored duties as they are. -/
def refreshDuties (slotsPerEpoch : UInt64) (head : HeadSlot) :
    Program Calls (Outcome Unit Unit) := do
  match (head.epoch slotsPerEpoch : Outcome Unit UInt64) with
  | .panicked => return .panicked
  | .err error => return .err error
  | .ok epoch =>
  let dutiesEpoch ← call (.proposerDuties epoch)
  let dutiesNextEpoch ← call (.proposerDuties (epoch + 1))
  let some current := dutiesEpoch | return .err ()
  let some next := dutiesNextEpoch | return .err ()
  match ← intoDuties (current ++ next) with
  | .panicked => return .panicked
  | .err error => return .err error
  | .ok duties =>
      if duties = [] then
        return .ok ()
      storage (.setProposerDuties duties)
      return .ok ()

end MevRelay
