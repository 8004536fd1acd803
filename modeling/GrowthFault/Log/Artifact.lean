import GrowthFault.Calendar
import GrowthFault.Digest.Sha256
import GrowthFault.Files.Basic
import GrowthFault.Json.Schema

/-!
# Artifacts

An index lists the files that a campaign produced, each pinned by its digest.
-/

namespace GrowthFault

structure ArtifactEntry where
  path : String
  kind : String
  sha256 : String
  sizeBytes : Option UInt64 := none
  deriving DecidableEq, Repr

open Json Described in
instance : Described ArtifactEntry where
  schema := .record "ArtifactEntry"
    (.cons "path" .required .string <|
      .cons "kind" .required .string <|
      .cons "sha256" .required .string <|
      .cons "size_bytes" .omittable (.integer .word64) .nil)
  toCarrier e := (e.path, e.kind, e.sha256, e.sizeBytes, ())
  ofCarrier := fun (path, kind, sha256, sizeBytes, ()) => ⟨path, kind, sha256, sizeBytes⟩
  ofCarrier_toCarrier _ := rfl

structure ArtifactIndex where
  indexVersion : UInt32
  runId : String
  campaign : String
  generatedUtc : String
  artifacts : List ArtifactEntry
  deriving DecidableEq, Repr

open Json Described in
instance : Described ArtifactIndex where
  schema := .record "ArtifactIndex"
    (.cons "index_version" .required (.integer .word32) <|
      .cons "run_id" .required .string <|
      .cons "campaign" .required .string <|
      .cons "generated_utc" .required .string <|
      .cons "artifacts" .required (.list (schema ArtifactEntry)) .nil)
  toCarrier i := (i.indexVersion, i.runId, i.campaign, i.generatedUtc,
    i.artifacts.map toCarrier, ())
  ofCarrier := fun (indexVersion, runId, campaign, generatedUtc, artifacts, ()) =>
    ⟨indexVersion, runId, campaign, generatedUtc, artifacts.map ofCarrier⟩
  ofCarrier_toCarrier i := by cases i; simp

namespace ArtifactIndex

def make (runId campaign : String) (now : Instant) : ArtifactIndex :=
  ⟨1, runId, campaign, now.timestamp, []⟩

def add (i : ArtifactIndex) (path kind sha256 : String) : ArtifactIndex :=
  { i with artifacts := i.artifacts ++ [⟨path, kind, sha256, none⟩] }

def addFile (i : ArtifactIndex) (fs : Files) (path : Path) (kind : String) :
    Except FileFault ArtifactIndex := do
  let bytes ← fs.read path
  let entry : ArtifactEntry :=
    ⟨path.display, kind, Sha256.hexDigest bytes, some (UInt64.ofNat bytes.length)⟩
  .ok { i with artifacts := i.artifacts ++ [entry] }

end ArtifactIndex

end GrowthFault
