import NeonDiff.Lib.Checked
import NeonDiff.Review.Gate

/-! # The review ensemble: the leaves of a shadow review reduced to one packet -/

namespace NeonDiff.Review

open NeonDiff.Lib

inductive ReviewEnsembleLeafId where
  | anchor | state | boundary | failure
  deriving DecidableEq, Repr

namespace ReviewEnsembleLeafId

def text : ReviewEnsembleLeafId → String
  | anchor => "anchor"
  | state => "state"
  | boundary => "boundary"
  | failure => "failure"

/-- `LEAF_ORDER`. -/
def order : ReviewEnsembleLeafId → Nat
  | anchor => 0
  | state => 1
  | boundary => 2
  | failure => 3

end ReviewEnsembleLeafId

structure ReviewEnsembleLeafPlan where
  id : ReviewEnsembleLeafId
  required : Bool

def CANONICAL_LEAVES : List ReviewEnsembleLeafPlan :=
  [⟨.anchor, true⟩, ⟨.state, true⟩, ⟨.boundary, true⟩, ⟨.failure, true⟩]

structure ReviewEnsembleSubject where
  repo : String
  pullNumber : Int
  baseSha : String
  headSha : String
  deriving DecidableEq, Repr

inductive LeafStatus where
  | completed | failed
  deriving DecidableEq, Repr

structure ReviewEnsembleLeafReceipt where
  leafId : ReviewEnsembleLeafId
  required : Bool
  status : LeafStatus
  subject : ReviewEnsembleSubject
  findings : List Finding
  dropped : List DroppedFinding
  error : Option String

structure ReviewEnsembleManifestLeaf where
  id : ReviewEnsembleLeafId
  required : Bool
  status : LeafStatus
  error : Option String

/-- What the gate is told besides the findings, the files and the findings dropped before. -/
structure GatePolicy where
  maxInlineComments : Option Nat
  repoMemoryFalsePositiveFingerprints : List String
  repoMemoryFalsePositives : List RepoMemoryFalsePositiveEntry
  answeredThreads : List AnsweredThread
  requestChangesConfidenceFloors : Option RequestChangesConfidenceFloors
  categoryPrecisionFloors : Option CategoryPrecisionFloors

structure ReviewEnsembleInput where
  subject : ReviewEnsembleSubject
  files : List PullFilePatch
  receipts : List ReviewEnsembleLeafReceipt
  generatedAt : String
  gatePolicy : GatePolicy

/-- `Record<string, ReviewEnsembleLeafId[]>`. -/
abbrev Provenance : Type := List (String × List ReviewEnsembleLeafId)

/-- The packet without its checksum. -/
structure ReviewEnsemblePayload where
  packetVersion : String := "review-ensemble-packet-v0.1"
  generatedAt : String
  subject : ReviewEnsembleSubject
  complete : Bool
  postingEligible : Bool := false
  leaves : List ReviewEnsembleManifestLeaf
  gate : DeterministicReviewGateResult
  provenance : Provenance
  proofBoundary : String := "This packet is a non-posting shadow reduction. Only the canonical parent review may own GitHub posting, processed-head state, readiness, or review-event authority."

structure ReviewEnsemblePacket extends ReviewEnsemblePayload where
  sha256 : String

/-- `Date.parse`, and the SHA-256 of a payload's stable text. -/
structure EnsembleHost where
  dateParse : String → Option Int
  checksum : ReviewEnsemblePayload → String

variable (fns : TextFunctions) (host : EnsembleHost)

/-! ## Receipts -/

/-- One turn of the loop over the receipts, with the leaves seen before. -/
def checkReceipt (subject : ReviewEnsembleSubject) (seen : List ReviewEnsembleLeafId)
    (receipt : ReviewEnsembleLeafReceipt) : Except String (List ReviewEnsembleLeafId) := do
  require (!seen.contains receipt.leafId) ("duplicate review ensemble leaf receipt: " ++ receipt.leafId.text)
  require (receipt.subject.repo = subject.repo) ("review ensemble repo mismatch for " ++ receipt.leafId.text)
  require (receipt.subject.pullNumber = subject.pullNumber)
    ("review ensemble pull number mismatch for " ++ receipt.leafId.text)
  require (receipt.subject.baseSha = subject.baseSha) ("review ensemble base SHA mismatch for " ++ receipt.leafId.text)
  require (receipt.subject.headSha = subject.headSha) ("review ensemble head SHA mismatch for " ++ receipt.leafId.text)
  return seen ++ [receipt.leafId]

/-- `compareLeafId`, of receipts. -/
def leafBefore (left right : ReviewEnsembleLeafReceipt) : Prop := left.leafId.order ≤ right.leafId.order

instance : DecidableRel leafBefore := fun _ _ => inferInstanceAs (Decidable (_ ≤ _))

def normalizeReceipts (subject : ReviewEnsembleSubject) (receipts : List ReviewEnsembleLeafReceipt) :
    Except String (List ReviewEnsembleLeafReceipt) := do
  let _ ← receipts.foldlM (checkReceipt subject) []
  return receipts.insertionSort leafBefore

def toManifestLeaf (receipt : ReviewEnsembleLeafReceipt) : ReviewEnsembleManifestLeaf where
  id := receipt.leafId
  required := receipt.required
  status := receipt.status
  error := (receipt.error.filter (· ≠ "")).map fns.redactSecrets

def isComplete (receipts : List ReviewEnsembleLeafReceipt) : Bool :=
  CANONICAL_LEAVES.all fun expected =>
    !expected.required ||
      ((receipts.find? fun candidate => candidate.leafId = expected.id).any fun receipt => receipt.status = .completed)

def completedReceipts (receipts : List ReviewEnsembleLeafReceipt) : List ReviewEnsembleLeafReceipt :=
  receipts.filter fun receipt => receipt.status = .completed

/-! ## The gate's input -/

def gateInputOf (input : ReviewEnsembleInput) (completed : List ReviewEnsembleLeafReceipt) : GateInput where
  findings := completed.flatMap ReviewEnsembleLeafReceipt.findings
  files := input.files
  droppedFromSchema := completed.flatMap ReviewEnsembleLeafReceipt.dropped
  maxInlineComments := input.gatePolicy.maxInlineComments
  repoMemoryFalsePositiveFingerprints := input.gatePolicy.repoMemoryFalsePositiveFingerprints
  repoMemoryFalsePositives := input.gatePolicy.repoMemoryFalsePositives
  answeredThreads := input.gatePolicy.answeredThreads
  requestChangesConfidenceFloors := input.gatePolicy.requestChangesConfidenceFloors
  categoryPrecisionFloors := input.gatePolicy.categoryPrecisionFloors

/-! ## Provenance -/

structure GatedRepresentative where
  fingerprint : String
  representative : Finding

def gatedRepresentatives (findings : List Finding) (comments : List ReviewComment) : List GatedRepresentative :=
  comments.filterMap fun comment =>
    (findings.find? fun item => buildFindingFingerprint fns item = comment.fingerprint).map fun representative =>
      ⟨comment.fingerprint, representative⟩

/-- `provenance[fingerprint]`. -/
def leavesOf (provenance : Provenance) (fingerprint : String) : Option (List ReviewEnsembleLeafId) :=
  (provenance.find? fun entry => entry.1 = fingerprint).map Prod.snd

/-- The ids with one more, in the order of the leaves. -/
def withLeaf (ids : List ReviewEnsembleLeafId) (leafId : ReviewEnsembleLeafId) : List ReviewEnsembleLeafId :=
  (if leafId ∈ ids then ids else ids ++ [leafId]).insertionSort fun left right => left.order ≤ right.order

/-- One turn of the inner loop over the findings of a leaf. -/
def credit (clusters : List GatedRepresentative) (leafId : ReviewEnsembleLeafId) (provenance : Provenance)
    (item : Finding) : Provenance :=
  match clusters.find? fun cluster => sameRunFindingsAreNearDuplicates fns cluster.representative item with
  | none => provenance
  | some cluster =>
    assign provenance cluster.fingerprint (withLeaf ((leavesOf provenance cluster.fingerprint).getD []) leafId)

def provenanceOf (clusters : List GatedRepresentative) (completed : List ReviewEnsembleLeafReceipt) : Provenance :=
  completed.foldl (fun provenance receipt => receipt.findings.foldl (credit fns clusters receipt.leafId) provenance) []

/-! ## The packet -/

def gateInput (input : ReviewEnsembleInput) (receipts : List ReviewEnsembleLeafReceipt) : GateInput :=
  gateInputOf input (completedReceipts receipts)

/-- What is made of the receipts once they are in order. -/
def payloadOf (input : ReviewEnsembleInput) (receipts : List ReviewEnsembleLeafReceipt) : ReviewEnsemblePayload :=
  let gate := applyDeterministicReviewGate fns (gateInput input receipts)
  let clusters := gatedRepresentatives fns (gateInput input receipts).findings gate.comments
  { generatedAt := input.generatedAt
    subject := input.subject
    complete := isComplete receipts
    leaves := receipts.map (toManifestLeaf fns)
    gate := gate
    provenance := provenanceOf fns clusters (completedReceipts receipts) }

def reduceReviewEnsemble (input : ReviewEnsembleInput) : Except String ReviewEnsemblePacket := do
  require (host.dateParse input.generatedAt).isSome "review ensemble generatedAt must be an ISO timestamp"
  let receipts ← normalizeReceipts input.subject input.receipts
  let payload := payloadOf fns input receipts
  return { payload with sha256 := host.checksum payload }

end NeonDiff.Review
