import OmniagentPlus.OmnigentTransport.SseNormalizer
import OmniagentPlus.Foundation.Transition
import Mathlib.Data.Finset.Erase
import Mathlib.Data.List.InsertIdx

/-! The methods of `OmnigentSseNormalizer` that its stream calls between the frames, and any
sequence of calls and frames as a run. -/
namespace OmniagentPlus.OmnigentTransport
open OmniagentPlus.Foundation OmniagentPlus.CoreContracts

/-- A turn in the place of another, or left out where it is in the list already. -/
def replaceTrackedTurnId (turnIds : List Text) (previousTurnId nextTurnId : Text) : List Text :=
  if previousTurnId ∈ turnIds then
    let others := turnIds.erase previousTurnId
    if nextTurnId ∈ others then others else others.insertIdx (turnIds.idxOf previousTurnId) nextTurnId
  else turnIds

namespace OmnigentSseNormalizer
variable (s : OmnigentSseNormalizer)

/-- A turn that no response has, and that is on neither list, waits behind the others. -/
def trackUnboundTurnId (turnId : Text) : OmnigentSseNormalizer :=
  if turnId ∈ s.unboundTurnIds ∨ turnId ∈ s.pendingTerminalTurnIds ∨ turnId ∈ s.responseAliases.values then s
  else { s with unboundTurnIds := s.unboundTurnIds ++ [turnId] }

/-- `null` and `undefined` are `none`. -/
def setActiveResponseId : Option Text → OmnigentSseNormalizer
  | none => { s with currentResponseId := none }
  | some responseId =>
    if responseId ∈ s.rejectedTurnIds then
      { s with currentResponseId := none, identityFreeQuarantineTurnId := some responseId }
    else
      let active := { s with identityFreeQuarantineTurnId := none, currentResponseId := some responseId }
      if responseId.isEmpty then active
      else
        let known := { active with knownResponseIds := insert responseId active.knownResponseIds }
        match known.unboundTurnIds.head?, known.responseAliases.get? responseId with
        | some oldestUnboundTurnId, none =>
          { known with
            tentativeResponseAliases := known.tentativeResponseAliases.set responseId oldestUnboundTurnId }
        | _, _ => known

def bindResponseId (responseId turnId : Text) : OmnigentSseNormalizer :=
  if responseId ∈ s.rejectedTurnIds then s
  else { s with knownResponseIds := insert responseId s.knownResponseIds }.bindResponseAlias responseId turnId

def setFallbackTurnId : Option Text → OmnigentSseNormalizer
  | none => { s with fallbackTurnId := none }
  | some turnId =>
    if turnId ∈ s.rejectedTurnIds then s
    else { s with
      fallbackTurnId := some turnId
      identityFreeQuarantineTurnId := if s.identityFreeQuarantineTurnId = some turnId then none
        else s.identityFreeQuarantineTurnId }.trackUnboundTurnId turnId

def removeFallbackTurnId (turnId : Text) : OmnigentSseNormalizer :=
  let removed := ({ s with fallbackTurnId := if s.fallbackTurnId = some turnId then none else s.fallbackTurnId
    }.removeUnboundTurnId turnId).removePendingTerminalTurnId turnId
  { removed with
    responseAliases := removed.responseAliases.filter (fun aliasId => decide (aliasId ≠ turnId))
    tentativeResponseAliases := removed.tentativeResponseAliases.filter (fun aliasId => decide (aliasId ≠ turnId)) }

def quarantineFallbackTurnId (turnId : Text) : OmnigentSseNormalizer :=
  { s with
    rejectedTurnIds := insert turnId s.rejectedTurnIds
    identityFreeQuarantineTurnId := some turnId }.trackUnboundTurnId turnId

def rejectTurnId (turnId : Text) : OmnigentSseNormalizer :=
  let removed := { s with rejectedTurnIds := insert turnId s.rejectedTurnIds }.removeFallbackTurnId turnId
  let unknown := { removed with knownResponseIds := removed.knownResponseIds.erase turnId }
  if unknown.currentResponseId = some turnId then
    { unknown with identityFreeQuarantineTurnId := some turnId, currentResponseId := none }
  else unknown

def restoreRejectedTurnId (turnId : Text) : OmnigentSseNormalizer :=
  { s with
    rejectedTurnIds := s.rejectedTurnIds.erase turnId
    identityFreeQuarantineTurnId := if s.identityFreeQuarantineTurnId = some turnId then none
      else s.identityFreeQuarantineTurnId }

def replaceFallbackTurnId (previousTurnId nextTurnId : Text) : OmnigentSseNormalizer :=
  if previousTurnId = nextTurnId then s
  else
    let replaced := fun aliasId => if aliasId = previousTurnId then nextTurnId else aliasId
    { s with
      fallbackTurnId := if s.fallbackTurnId = some previousTurnId then some nextTurnId else s.fallbackTurnId
      unboundTurnIds := replaceTrackedTurnId s.unboundTurnIds previousTurnId nextTurnId
      pendingTerminalTurnIds := replaceTrackedTurnId s.pendingTerminalTurnIds previousTurnId nextTurnId
      responseAliases := s.responseAliases.mapValues replaced
      tentativeResponseAliases := s.tentativeResponseAliases.mapValues replaced }

end OmnigentSseNormalizer

/-- A call of the normalizer; a frame comes with the time at which it is read. -/
inductive NormalizerCall (ν : Type) where
  | setActiveResponseId (responseId : Option Text)
  | bindResponseId (responseId turnId : Text)
  | setFallbackTurnId (turnId : Option Text)
  | removeFallbackTurnId (turnId : Text)
  | quarantineFallbackTurnId (turnId : Text)
  | rejectTurnId (turnId : Text)
  | restoreRejectedTurnId (turnId : Text)
  | replaceFallbackTurnId (previousTurnId nextTurnId : Text)
  | normalize (tagged : OmnigentTaggedSseEvent ν) (now : Text)

namespace OmnigentSseNormalizer
variable {ν : Type} [JsNumber ν]

def call (s : OmnigentSseNormalizer) : NormalizerCall ν → OmnigentSseNormalizer
  | .setActiveResponseId responseId => s.setActiveResponseId responseId
  | .bindResponseId responseId turnId => s.bindResponseId responseId turnId
  | .setFallbackTurnId turnId => s.setFallbackTurnId turnId
  | .removeFallbackTurnId turnId => s.removeFallbackTurnId turnId
  | .quarantineFallbackTurnId turnId => s.quarantineFallbackTurnId turnId
  | .rejectTurnId turnId => s.rejectTurnId turnId
  | .restoreRejectedTurnId turnId => s.restoreRejectedTurnId turnId
  | .replaceFallbackTurnId previousTurnId nextTurnId => s.replaceFallbackTurnId previousTurnId nextTurnId
  | .normalize tagged now => (s.normalize tagged now).1

/-- Every call returns. -/
def callStep (s : OmnigentSseNormalizer) (c : NormalizerCall ν) : Option OmnigentSseNormalizer := some (s.call c)

end OmnigentSseNormalizer
end OmniagentPlus.OmnigentTransport
