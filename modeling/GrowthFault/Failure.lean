import GrowthFault.Files.Basic
import GrowthFault.Subject.Basic

/-!
# Failures

Why a command could not do its work, or what it found.
-/

namespace GrowthFault

inductive Failure where
  | io (fault : FileFault)
  /-- A JSON text was refused, for this reason. -/
  | json (reason : String)
  | unknownSubject (word : String)
  | missingLibrary (path : Path)
  | missingChecker (path : Path)
  | spawn (program : Path) (fault : FileFault)
  | invalidArgument (reason : String)
  | expectationsFailed (failed total : UInt64)
  deriving DecidableEq, Repr

namespace Failure

def text : Failure → String
  | .io fault => "io: " ++ fault.text
  | .json reason => "json: " ++ reason
  | .unknownSubject word => Subject.unknownText word
  | .missingLibrary path => "shim library not found at " ++ path.display
  | .missingChecker path => "checker binary not found at " ++ path.display
  | .spawn program fault => "failed to spawn " ++ program.display ++ ": " ++ fault.text
  | .invalidArgument reason => "invalid argument: " ++ reason
  | .expectationsFailed failed total =>
    Decimal.text failed.toNat ++ " of " ++ Decimal.text total.toNat ++
      " checks did not meet expectations"

def inspect : Failure → String
  | .io fault => "Io(" ++ fault.inspect ++ ")"
  | .json reason => "Json(" ++ Text.quoted reason ++ ")"
  | .unknownSubject word => "UnknownSubject(" ++ Text.quoted word ++ ")"
  | .missingLibrary path => "MissingShim(" ++ Text.quotedPath path ++ ")"
  | .missingChecker path => "MissingChecker(" ++ Text.quotedPath path ++ ")"
  | .spawn program fault =>
    "Spawn \x7b program: " ++ Text.quotedPath program ++ ", source: " ++ fault.inspect ++ " \x7d"
  | .invalidArgument reason => "InvalidArgument(" ++ Text.quoted reason ++ ")"
  | .expectationsFailed failed total =>
    "ExpectationsFailed \x7b failed: " ++ Decimal.text failed.toNat ++ ", total: " ++
      Decimal.text total.toNat ++ " \x7d"

end Failure

end GrowthFault
