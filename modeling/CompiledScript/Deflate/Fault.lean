/-!
# Faults of a deflate stream

A stream is either cut off before the end of its final block, or broken at a definite place. The
texts are the ones that compression tools commonly print for these causes, with their numbers.
-/

namespace CompiledScript.Deflate

/-- Why a deflate stream cannot be inflated. -/
inductive Fault where
  | truncated
  | blockType
  | storedLengths
  | tooManySymbols
  | codeLengthsSet
  | lengthRepeat
  | missingEndOfBlock
  | literalSet
  | distanceSet
  | literalCode
  | distanceCode
  | distanceTooFar
  deriving DecidableEq

namespace Fault

/-- The number that goes with the cause: a cut-off stream has one of its own. -/
def number : Fault → Int
  | .truncated => -5
  | _ => -3

def reason : Fault → String
  | .truncated => "incomplete or truncated stream"
  | .blockType => "invalid block type"
  | .storedLengths => "invalid stored block lengths"
  | .tooManySymbols => "too many length or distance symbols"
  | .codeLengthsSet => "invalid code lengths set"
  | .lengthRepeat => "invalid bit length repeat"
  | .missingEndOfBlock => "invalid code -- missing end-of-block"
  | .literalSet => "invalid literal/lengths set"
  | .distanceSet => "invalid distances set"
  | .literalCode => "invalid literal/length code"
  | .distanceCode => "invalid distance code"
  | .distanceTooFar => "invalid distance too far back"

def message (fault : Fault) : String :=
  s!"Error {fault.number} while decompressing data: " ++ fault.reason

end Fault
end CompiledScript.Deflate
