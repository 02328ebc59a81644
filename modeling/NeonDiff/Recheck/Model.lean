import NeonDiff.Lib.Json
import NeonDiff.Review.Gate

/-! # The second draw on severe comments -/

namespace NeonDiff.Recheck

open NeonDiff.Lib NeonDiff.Review

/-! ## Values -/

/-- What a provider returns: plain data, or a value that is none. -/
inductive JsValue where
  | other
  | null
  | bool (b : Bool)
  | number (n : ℚ)
  | str (s : String)
  | arr (items : List JsValue)
  | obj (fields : List (String × JsValue))

namespace JsValue

def field (fields : List (String × JsValue)) (key : String) : Option JsValue :=
  (fields.find? fun f => f.1 = key).map Prod.snd

mutual

/-- Equal data, with the keys of an object in any order. -/
def sameJsonData : JsValue → JsValue → Bool
  | null, null => true
  | bool a, bool b => a = b
  | number a, number b => a = b
  | str a, str b => a = b
  | arr left, arr right => sameItems left right
  | obj left, obj right => (left.map Prod.fst).isPerm (right.map Prod.fst) && sameFields left right
  | _, _ => false

def sameItems : List JsValue → List JsValue → Bool
  | [], [] => true
  | a :: left, b :: right => sameJsonData a b && sameItems left right
  | _, _ => false

def sameFields : List (String × JsValue) → List (String × JsValue) → Bool
  | [], _ => true
  | (key, a) :: left, right =>
    (match field right key with
      | some b => sameJsonData a b
      | none => false) && sameFields left right

end

end JsValue

/-! ## Receipts -/

inductive SevereVerificationState where
  | confirmed | refuted | failed | malformed | timeout | unavailable | stale_head | incomplete
  deriving DecidableEq, Repr

inductive SevereVerificationCode where
  | not_read | refuted | malformed | timeout | unavailable | stale_head | incomplete | schema_invalid
  | identity_mismatch | evidence_incomplete | provider_unavailable | cap_exceeded | receipt_invalid
  deriving DecidableEq, Repr

inductive SevereVerificationDisposition where
  | retain | suppress
  deriving DecidableEq, Repr

inductive SevereEvidenceKind where
  | whole_file | module_file
  deriving DecidableEq, Repr

def SevereVerificationState.text : SevereVerificationState → String
  | .confirmed => "confirmed"
  | .refuted => "refuted"
  | .failed => "failed"
  | .malformed => "malformed"
  | .timeout => "timeout"
  | .unavailable => "unavailable"
  | .stale_head => "stale_head"
  | .incomplete => "incomplete"

def SevereVerificationCode.text : SevereVerificationCode → String
  | .not_read => "not_read"
  | .refuted => "refuted"
  | .malformed => "malformed"
  | .timeout => "timeout"
  | .unavailable => "unavailable"
  | .stale_head => "stale_head"
  | .incomplete => "incomplete"
  | .schema_invalid => "schema_invalid"
  | .identity_mismatch => "identity_mismatch"
  | .evidence_incomplete => "evidence_incomplete"
  | .provider_unavailable => "provider_unavailable"
  | .cap_exceeded => "cap_exceeded"
  | .receipt_invalid => "receipt_invalid"

def SevereVerificationDisposition.text : SevereVerificationDisposition → String
  | .retain => "retain"
  | .suppress => "suppress"

def SevereEvidenceKind.text : SevereEvidenceKind → String
  | .whole_file => "whole_file"
  | .module_file => "module"

structure SevereVerificationEvidenceFile where
  path : String
  kind : SevereEvidenceKind
  sha256 : String
  bytes : Nat
  complete : Bool
  deriving DecidableEq

structure SevereVerificationEvidenceHunk where
  sha256 : String
  bytes : Nat
  complete : Bool
  deriving DecidableEq

structure SevereVerificationEvidenceOmission where
  path : String
  code : SevereVerificationCode
  deriving DecidableEq

structure SevereVerificationEvidence where
  changedHunk : Option SevereVerificationEvidenceHunk
  files : List SevereVerificationEvidenceFile
  omitted : List SevereVerificationEvidenceOmission
  complete : Bool
  deriving DecidableEq

structure SevereVerificationReceipt where
  schemaVersion : String
  repo : String
  pullNumber : Nat
  baseSha : String
  headSha : String
  findingFingerprint : String
  state : SevereVerificationState
  disposition : SevereVerificationDisposition
  confidence : Option ℚ
  reasonCode : Option SevereVerificationCode
  evidence : SevereVerificationEvidence
  deriving DecidableEq

structure CanonicalSevereVerificationReceipt where
  receipt : SevereVerificationReceipt
  canonicalJson : String
  digest : String

/-- The receipt parser, which gives nothing where it throws, `JSON.stringify` of a number, and the hash in hexadecimal. -/
structure ReceiptFunctions where
  parseSevereVerificationReceipt : String → Option SevereVerificationReceipt
  stringifyNumber : ℚ → String
  sha256 : String → String

variable (fns : ReceiptFunctions)

/-- The order of the code points. -/
def compareText (a b : String) : Ordering := List.compareLex (fun c d => compare c.toNat d.toNat) a.toList b.toList

def compareFiles : SevereVerificationEvidenceFile → SevereVerificationEvidenceFile → Ordering :=
  compareLex (fun a b => compareText a.path b.path) <|
  compareLex (fun a b => compareText a.kind.text b.kind.text) <|
  compareLex (fun a b => compareText a.sha256 b.sha256) <|
  compareLex (compareOn SevereVerificationEvidenceFile.bytes) (compareOn SevereVerificationEvidenceFile.complete)

def compareOmissions : SevereVerificationEvidenceOmission → SevereVerificationEvidenceOmission → Ordering :=
  compareLex (fun a b => compareText a.path b.path) fun a b => compareText a.code.text b.code.text

def quote (text : String) : String := String.ofList (Json.quote text)

def boolText (b : Bool) : String := if b then "true" else "false"

def serializeHunk (hunk : SevereVerificationEvidenceHunk) : String :=
  "\x7b\"sha256\":" ++ quote hunk.sha256 ++ ",\"bytes\":" ++ toString hunk.bytes ++ ",\"complete\":" ++
    boolText hunk.complete ++ "\x7d"

def serializeFile (file : SevereVerificationEvidenceFile) : String :=
  "\x7b\"path\":" ++ quote file.path ++ ",\"kind\":" ++ quote file.kind.text ++ ",\"sha256\":" ++ quote file.sha256 ++
    ",\"bytes\":" ++ toString file.bytes ++ ",\"complete\":" ++ boolText file.complete ++ "\x7d"

def serializeOmission (item : SevereVerificationEvidenceOmission) : String :=
  "\x7b\"path\":" ++ quote item.path ++ ",\"code\":" ++ quote item.code.text ++ "\x7d"

def serializeReceipt (receipt : SevereVerificationReceipt) : String :=
  "\x7b\"schemaVersion\":" ++ quote receipt.schemaVersion ++ ",\"repo\":" ++ quote receipt.repo ++
    ",\"pullNumber\":" ++ toString receipt.pullNumber ++ ",\"baseSha\":" ++ quote receipt.baseSha ++
    ",\"headSha\":" ++ quote receipt.headSha ++ ",\"findingFingerprint\":" ++ quote receipt.findingFingerprint ++
    ",\"state\":" ++ quote receipt.state.text ++ ",\"disposition\":" ++ quote receipt.disposition.text ++
    (receipt.confidence.elim "" fun n => ",\"confidence\":" ++ fns.stringifyNumber n) ++
    (receipt.reasonCode.elim "" fun code => ",\"reasonCode\":" ++ quote code.text) ++
    ",\"evidence\":\x7b" ++ (receipt.evidence.changedHunk.elim "" fun hunk => "\"changedHunk\":" ++ serializeHunk hunk ++ ",") ++
    "\"files\":[" ++ ",".intercalate (receipt.evidence.files.map serializeFile) ++
    "],\"omitted\":[" ++ ",".intercalate (receipt.evidence.omitted.map serializeOmission) ++
    "],\"complete\":" ++ boolText receipt.evidence.complete ++ "\x7d\x7d"

def canonicalizeSevereVerificationReceipt (input : String) : Option CanonicalSevereVerificationReceipt :=
  (fns.parseSevereVerificationReceipt input).map fun parsed =>
    let files := parsed.evidence.files.mergeSort fun a b => (compareFiles a b).isLE
    let omitted := parsed.evidence.omitted.mergeSort fun a b => (compareOmissions a b).isLE
    let receipt := { parsed with evidence := { parsed.evidence with files, omitted } }
    let canonicalJson := serializeReceipt fns receipt
    { receipt, canonicalJson, digest := fns.sha256 canonicalJson }

open JsValue in
def receiptValue (receipt : SevereVerificationReceipt) : JsValue :=
  let hunkValue := fun hunk : SevereVerificationEvidenceHunk =>
    obj [("sha256", str hunk.sha256), ("bytes", number hunk.bytes), ("complete", bool hunk.complete)]
  let fileValue := fun file : SevereVerificationEvidenceFile =>
    obj [("path", str file.path), ("kind", str file.kind.text), ("sha256", str file.sha256), ("bytes", number file.bytes),
      ("complete", bool file.complete)]
  let omissionValue := fun item : SevereVerificationEvidenceOmission =>
    obj [("path", str item.path), ("code", str item.code.text)]
  obj <|
    [("schemaVersion", str receipt.schemaVersion), ("repo", str receipt.repo), ("pullNumber", number receipt.pullNumber),
      ("baseSha", str receipt.baseSha), ("headSha", str receipt.headSha),
      ("findingFingerprint", str receipt.findingFingerprint), ("state", str receipt.state.text),
      ("disposition", str receipt.disposition.text)] ++
    (receipt.confidence.map fun n => ("confidence", number n)).toList ++
    (receipt.reasonCode.map fun code => ("reasonCode", str code.text)).toList ++
    [("evidence", obj <|
      (receipt.evidence.changedHunk.map fun hunk => ("changedHunk", hunkValue hunk)).toList ++
      [("files", arr (receipt.evidence.files.map fileValue)), ("omitted", arr (receipt.evidence.omitted.map omissionValue)),
        ("complete", bool receipt.evidence.complete)])]

/-- The canonical receipt of a draw that holds nothing else. -/
def parseCanonicalResult (value : JsValue) : Option CanonicalSevereVerificationReceipt :=
  match value with
  | .obj fields =>
    if !(fields.map Prod.fst).isPerm ["canonicalJson", "digest", "receipt"] then none
    else match JsValue.field fields "canonicalJson", JsValue.field fields "digest", JsValue.field fields "receipt" with
      | some (.str canonicalJson), some (.str digest), some (.obj receipt) =>
        (canonicalizeSevereVerificationReceipt fns canonicalJson).filter fun canonical =>
          canonical.canonicalJson = canonicalJson && canonical.digest = digest &&
            JsValue.sameJsonData (receiptValue canonical.receipt) (.obj receipt)
      | _, _, _ => none
  | _ => none

/-! ## Comments -/

structure DemotableComment extends ReviewComment where
  severityDemotedFrom : Option Severity := none
  severityDemotionReason : Option String := none

def SEVERITY_DEMOTION_NOTE : String := "a second check did not confirm it."

def demoteReviewComment (comment : DemotableComment) (note : String) : Option DemotableComment :=
  let original := comment.severity
  let start := "**" ++ original.text ++ ": "
  if !isHighSeverity original || !JsText.startsWith comment.body start then none
  else
    some { comment with
      severity := .P2
      body := "**P2: " ++ String.ofList (comment.body.toList.drop start.length) ++
        "\n\n_Severity lowered from " ++ original.text ++ ": " ++ note ++ "_"
      severityDemotedFrom := some original
      severityDemotionReason := some note }

structure SelfConsistencyReviewContext where
  repo : String
  pullNumber : Nat
  baseSha : String
  headSha : String

def hasCompleteEvidence (receipt : SevereVerificationReceipt) (findingPath : String) : Bool :=
  receipt.evidence.complete && receipt.evidence.changedHunk.any (·.complete) && receipt.evidence.omitted.isEmpty &&
    !receipt.evidence.files.isEmpty && receipt.evidence.files.all (·.complete) &&
    receipt.evidence.files.any fun file => file.kind = .whole_file && file.path = findingPath

def retainsSevereFinding (receipt : SevereVerificationReceipt) (comment : DemotableComment)
    (context : Option SelfConsistencyReviewContext) : Bool :=
  match context with
  | none => false
  | some context =>
    receipt.state = .confirmed && receipt.disposition = .retain && receipt.repo = context.repo &&
      receipt.pullNumber = context.pullNumber && receipt.baseSha = context.baseSha && receipt.headSha = context.headSha &&
      receipt.findingFingerprint = comment.fingerprint && hasCompleteEvidence receipt comment.path

def extractHunk (comment : DemotableComment) (files : List PullFilePatch) : String :=
  ((files.find? fun candidate => candidate.filename = comment.path).bind PullFilePatch.patch).getD ""

/-! ## The recheck -/

inductive OnUnsupported where
  | suppress | demote
  deriving DecidableEq, Repr

structure SelfConsistencyRecheckConfig where
  enabled : Bool
  severities : Option (List Severity)
  maxFindingsPerReview : Option Nat
  onUnsupported : Option OnUnsupported

inductive VerdictAction where
  | retained | suppressed | demoted
  deriving DecidableEq, Repr

structure SelfConsistencyVerdict where
  action : VerdictAction
  demotionSkipped : Option Bool := none
  path : String
  line : Int
  severity : Severity
  title : String
  originalConfidence : ℚ
  secondConfidence : Option ℚ := none
  agreed : Option Bool := none
  refuted : Option Bool := none
  receipt : Option SevereVerificationReceipt := none
  error : Option String := none

structure SelfConsistencySecondDrawInput where
  comment : DemotableComment
  hunk : String

/-- What a call of the provider comes to. -/
inductive Draw where
  | returned (value : JsValue)
  | threw

structure RecheckInput where
  comments : List DemotableComment
  files : List PullFilePatch
  config : SelfConsistencyRecheckConfig
  reviewContext : Option SelfConsistencyReviewContext
  requestChangesConfidenceFloors : Option RequestChangesConfidenceFloors
  categoryPrecisionFloors : Option CategoryPrecisionFloors

/-- The loop's variables, with the calls of the provider so far. -/
structure Rechecking where
  comments : List DemotableComment := []
  verdicts : List SelfConsistencyVerdict := []
  rechecked : Nat := 0
  draws : List SelfConsistencySecondDrawInput := []

def DEFAULT_SEVERITIES : List Severity := [.P0, .P1]

def DEFAULT_MAX_FINDINGS : Nat := 5

namespace RecheckInput

variable (input : RecheckInput)

def severities : List Severity := input.config.severities.getD DEFAULT_SEVERITIES

def maxFindings : Nat := input.config.maxFindingsPerReview.getD DEFAULT_MAX_FINDINGS

def secondDrawInput (comment : DemotableComment) : SelfConsistencySecondDrawInput :=
  ⟨comment, extractHunk comment input.files⟩

def decideReviewEvent (comments : List DemotableComment) : ReviewEvent :=
  if comments.any fun comment => isRequestChangesEligible comment.severity comment.category comment.confidence
      input.requestChangesConfidenceFloors input.categoryPrecisionFloors then
    .REQUEST_CHANGES
  else .COMMENT

end RecheckInput

def baseVerdict (comment : DemotableComment) : SelfConsistencyVerdict where
  action := .suppressed
  path := comment.path
  line := comment.line
  severity := comment.severity
  title := comment.title
  originalConfidence := comment.confidence

def handleUnsupported (input : RecheckInput) (state : Rechecking) (comment : DemotableComment)
    (verdict : SelfConsistencyVerdict) : Rechecking :=
  if input.config.onUnsupported = some .demote then
    match demoteReviewComment comment SEVERITY_DEMOTION_NOTE with
    | some demoted =>
      { state with
        comments := state.comments ++ [demoted]
        verdicts := state.verdicts ++ [{ verdict with action := .demoted }] }
    | none =>
      { state with verdicts := state.verdicts ++ [{ verdict with action := .suppressed, demotionSkipped := some true }] }
  else { state with verdicts := state.verdicts ++ [verdict] }

/-- One comment of the loop. The call of the provider with a given number may come to anything. -/
def recheckComment (secondDraw : Nat → SelfConsistencySecondDrawInput → Draw) (input : RecheckInput) (state : Rechecking)
    (comment : DemotableComment) : Rechecking :=
  if !input.severities.contains comment.severity then { state with comments := state.comments ++ [comment] }
  else
    let base := baseVerdict comment
    if input.maxFindings ≤ state.rechecked then
      handleUnsupported input state comment { base with error := some "severe_verifier_cap_exceeded", refuted := some true }
    else
      let drawn := { state with
        rechecked := state.rechecked + 1
        draws := state.draws ++ [input.secondDrawInput comment] }
      match secondDraw state.rechecked (input.secondDrawInput comment) with
      | .threw =>
        handleUnsupported input drawn comment { base with error := some "severe_verifier_unavailable", refuted := some true }
      | .returned draw =>
        match parseCanonicalResult fns draw with
        | none =>
          handleUnsupported input drawn comment
            { base with error := some "severe_verifier_receipt_invalid", refuted := some true }
        | some canonical =>
          let receipt := canonical.receipt
          if retainsSevereFinding receipt comment input.reviewContext then
            { drawn with
              comments := drawn.comments ++ [comment]
              verdicts := drawn.verdicts ++ [{ base with
                action := .retained
                secondConfidence := receipt.confidence
                agreed := some true
                refuted := some false
                receipt := some receipt }] }
          else
            handleUnsupported input drawn comment { base with
              secondConfidence := receipt.confidence
              agreed := some false
              refuted := some true
              receipt := some receipt }

structure RecheckResult where
  comments : List DemotableComment
  event : ReviewEvent
  verdicts : List SelfConsistencyVerdict
  draws : List SelfConsistencySecondDrawInput

def runSelfConsistencyRecheck (secondDraw : Nat → SelfConsistencySecondDrawInput → Draw) (input : RecheckInput) :
    RecheckResult :=
  if !input.config.enabled then ⟨input.comments, input.decideReviewEvent input.comments, [], []⟩
  else
    let final := input.comments.foldl (recheckComment fns secondDraw input) {}
    ⟨final.comments, input.decideReviewEvent final.comments, final.verdicts, final.draws⟩

end NeonDiff.Recheck
